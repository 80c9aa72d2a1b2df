/-
HostRules/Statement/Parse.lean

Reading a rule file from its tokens.  The tokens divide into runs, each a statement with the
token that ends it.  A run takes one reading state to the next: a statement joins the body
being read, an opening brace opens a block, a closing brace closes the innermost one.  The
end of the text closes all of them.

Since a file is read run by run, reading two pieces of it in turn is `List.foldlM` over
their runs in turn.
-/
import HostRules.Statement.Header
import HostRules.Token.Scan

namespace HostRules

variable [Regex.Dialect]

/-! ### Runs of tokens -/

/-- The tokens of a statement and the token that ends it. -/
structure Run where
  tokens : List Token
  terminator : Token
deriving DecidableEq

/-- The tokens of a file as runs, and the tokens behind the last complete run. -/
structure Runs where
  complete : List Run
  last : List Token
deriving DecidableEq

/-- Puts a token before the runs of the tokens that follow it. -/
def Runs.cons (t : Token) (r : Runs) : Runs :=
  if t.kind.endsStatement then ⟨⟨[], t⟩ :: r.complete, r.last⟩
  else
    match r.complete with
    | [] => ⟨[], t :: r.last⟩
    | run :: more => ⟨{ run with tokens := t :: run.tokens } :: more, r.last⟩

/-- Divides tokens into runs. -/
def Runs.ofTokens (tokens : List Token) : Runs := tokens.foldr Runs.cons ⟨[], []⟩

/-- Tokens without the comments among them. -/
def withoutComments (tokens : List Token) : List Token := tokens.filter (·.kind != .comment)

/-! ### Plain statements -/

/-- The statement that the tokens of a run write, if there are any.  An arrow anywhere makes
it a rule, `set` at its head a variable; all else is a directive. -/
def Statement.read : List Token → Except Fault (Option Statement)
  | [] => .ok none
  | first :: more =>
    let place := first.span.start
    if (first :: more).any (·.value == "=>") then
      match more with
      | [middle, target] =>
        if middle.value = "=>" then .ok (some (.rule first target))
        else Header.refuse (.malformedRule 3) place
      | _ => Header.refuse (.malformedRule (more.length + 1)) place
    else if first.value = Keyword.set.text then
      match more with
      | [] | [_] => Header.refuse .incompleteVariable place
      | [name, value] => .ok (some (.declare name.value (.scalar value)))
      | name :: values => .ok (some (.declare name.value (.list values)))
    else .ok (some (.call first.value more))

/-! ### Reading states -/

/-- A block that is open: its header, and what had been read of the block around it, the last
statement first. -/
structure OpenBlock where
  header : Header
  before : List Statement

/-- A block with the body read becomes a statement of the block around it. -/
def OpenBlock.close (b : OpenBlock) (body : List Statement) : List Statement :=
  b.header.withBody body.reverse :: b.before

/-- What has been read so far: the open blocks, innermost first, and the statements of the
innermost body, the last one first. -/
structure ReadState where
  blocks : List OpenBlock := []
  body : List Statement := []

namespace ReadState

/-- The kind of the innermost block. -/
def scope (s : ReadState) : BlockKind :=
  match s.blocks with
  | [] => .global
  | b :: _ => b.header.kind

/-- Adds the statement that some tokens write to the innermost body. -/
def addStatement (s : ReadState) (tokens : List Token) : Except Fault ReadState := do
  let statement ← Statement.read tokens
  return { s with body := statement.toList ++ s.body }

/-- Opens a block. -/
def openBlock (s : ReadState) (header : Header) : ReadState := ⟨⟨header, s.body⟩ :: s.blocks, []⟩

/-- Reads one run. -/
def step (s : ReadState) (run : Run) : Except Fault ReadState :=
  let tokens := withoutComments run.tokens
  match run.terminator.kind with
  | .blockStart => do
    return s.openBlock (← Header.read tokens run.terminator.span.start s.scope)
  | .blockEnd =>
    match s.blocks with
    | [] => Header.refuse .unmatchedBlockEnd run.terminator.span.start
    | b :: outer => do return ⟨outer, b.close (← s.addStatement tokens).body⟩
  | _ => s.addStatement tokens

/-- Reads the tokens behind the last complete run, where the text ends and every open block
closes. -/
def finish (s : ReadState) (last : List Token) : Except Fault RuleFile := do
  let s ← s.addStatement (withoutComments last)
  return ⟨(s.blocks.foldl (fun body b => b.close body) s.body).reverse⟩

end ReadState

/-! ### Whole files -/

/-- Reads the rule file that a stream of tokens writes.  A fault of the stream counts only
when all that stands before it is in order. -/
def RuleFile.ofTokens (stream : TokenStream) : Except Fault RuleFile := do
  let runs := Runs.ofTokens stream.tokens
  let s ← runs.complete.foldlM ReadState.step {}
  match stream.fault with
  | some f => .error f
  | none => s.finish runs.last

/-- Reads a rule file. -/
def RuleFile.parse (source : String) : Except Fault RuleFile :=
  RuleFile.ofTokens (TokenStream.ofText source)

/-- What can be checked of the file that a text is read as holds of a file. -/
theorem RuleFile.exists_parse {P : RuleFile → Prop} [DecidablePred P] {source : String}
    (h : (parse source).toOption.any (fun f => decide (P f)) = true) :
    ∃ f, parse source = .ok f ∧ P f := by
  cases hf : parse source with
  | error fault =>
    rw [hf] at h
    cases h
  | ok f =>
    rw [hf] at h
    exact ⟨f, rfl, of_decide_eq_true h⟩

theorem RuleFile.exists_fault {source : String} (h : (parse source).toOption.isNone = true) :
    ∃ fault, parse source = .error fault := by
  cases hf : parse source with
  | error fault => exact ⟨fault, rfl⟩
  | ok f =>
    rw [hf] at h
    cases h

end HostRules
