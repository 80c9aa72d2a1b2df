/-
HostRules/Proofs/WellFormed.lean

Well-formed rule files.  The type of statements allows any statement in any body and any
text for any token; a rule file that can be written down keeps to the order of the blocks,
and its texts to what a header and a statement can hold.
-/
import HostRules.Statement.Header

namespace HostRules

/-! ### Texts -/

/-- No character of a text breaks the line. -/
def Unbroken (text : String) : Prop := ∀ c ∈ text.toList, isLineBreak c = false

/-- A text that can stand for a directive, an argument, a variable or a value: it does not
break the line, and it does not make a rule of its statement. -/
def Operand (text : String) : Prop := Unbroken text ∧ text ≠ "=>"

/-- A text that a header keeps as one host name. -/
def HostName (name : String) : Prop :=
  name ≠ "" ∧ ∀ c ∈ name.toList, Header.separatesNames c = false

instance (text : String) : Decidable (Unbroken text) := List.decidableBAll _ _

instance (text : String) : Decidable (Operand text) :=
  inferInstanceAs (Decidable (Unbroken text ∧ text ≠ "=>"))

instance (name : String) : Decidable (HostName name) :=
  @instDecidableAnd _ _ inferInstance (List.decidableBAll _ _)

theorem HostName.unbroken {name : String} (h : HostName name) : Unbroken name := by
  intro c hc
  have hsep := h.2 c hc
  -- a character that breaks the line would separate two names
  by_cases hb : isLineBreak c
  · have hb' : c = '\r' ∨ c = '\n' := by simpa [isLineBreak] using hb
    rcases hb' with rfl | rfl <;> exact absurd hsep (by decide)
  · simpa using hb

/-! ### Statements -/

/-- A value that can be written behind the name of a variable: a list has two items or more,
since one item is a scalar. -/
def Value.WellFormed : Value Token → Prop
  | scalar t => Operand t.value
  | list ts => 2 ≤ ts.length ∧ ∀ t ∈ ts, Operand t.value

variable [Regex.Dialect]

/-- A pattern that can be written in a header: a path is not the sign of a regular
expression, and a regular expression is written as itself. -/
def LocationPattern.WellFormed : LocationPattern → Prop
  | path text => text ≠ "~" ∧ Unbroken text
  | regex r => Regex.sourceOf r.source.toList = r.source.toList ∧ Unbroken r.source

mutual

/-- A statement that can be written in a block of the kind `scope`. -/
def Statement.WellFormed : BlockKind → Statement → Prop
  | scope, .domain names body =>
    scope = .global ∧ names ≠ [] ∧ (∀ name ∈ names, HostName name) ∧ BodyWellFormed .domain body
  | scope, .location pattern body =>
    scope = .domain ∧ pattern.WellFormed ∧ BodyWellFormed .location body
  | _, .call directive arguments =>
    directive ≠ "set" ∧ Operand directive ∧ ∀ t ∈ arguments, Operand t.value
  | _, .declare name value => Operand name ∧ value.WellFormed
  | _, .rule source target => Unbroken source.value ∧ Unbroken target.value

/-- A body that can be written in a block of the kind `scope`. -/
def Statement.BodyWellFormed : BlockKind → List Statement → Prop
  | _, [] => True
  | scope, s :: more => s.WellFormed scope ∧ BodyWellFormed scope more

end

/-- A rule file that can be written. -/
def RuleFile.WellFormed (f : RuleFile) : Prop := Statement.BodyWellFormed .global f.body

end HostRules
