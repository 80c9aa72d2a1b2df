/-
HostRules/Scope.lean

Variables and directives of nested blocks.  Each block has a layer of its own; a scope is
the layer of a block with the layers around it, innermost first.  A variable is the one of
the innermost layer that has it, a directive is hidden by one of the same name further in.
Settling a scope writes what it inherits into its own layer, with all values put in.
-/
import HostRules.Substitution

namespace HostRules

/-- A directive and its arguments. -/
structure Directive where
  name : String
  arguments : List String
deriving DecidableEq

/-- A directive with all references in its arguments replaced. -/
def Directive.substitute (σ : Substitution) (d : Directive) : Directive :=
  { d with arguments := d.arguments.map σ.apply }

/-- Whether one of some directives has a name. -/
def definesDirective (directives : List Directive) (name : String) : Bool :=
  directives.any (·.name == name)

/-- What one block defines: its variables, its directives as written, and, once it is
settled, its own and its inherited directives with all values put in. -/
structure Layer where
  bindings : Bindings := ∅
  directives : List Directive := []
  settled : List Directive := []
deriving DecidableEq

namespace Layer

/-- Gives a variable a value, which can mention the variables that the block has so far. -/
def declare (l : Layer) (name : String) (v : Value String) : Layer :=
  { l with bindings := l.bindings.insert name (l.bindings.substitution.applyValue v) }

/-- Adds a directive. -/
def addDirective (l : Layer) (d : Directive) : Layer :=
  { l with directives := l.directives ++ [d] }

end Layer

/-! ### What is visible through layers -/

/-- The value of a variable in the innermost of some layers that has it. -/
def lookupVariable (name : String) : List Layer → Option (Value String)
  | [] => none
  | l :: outer => (l.bindings.get? name).or (lookupVariable name outer)

/-- All variables of some layers; the innermost layer decides. -/
def visibleBindings : List Layer → Bindings
  | [] => ∅
  | l :: outer => (visibleBindings outer).overlay l.bindings

/-- All directives of some layers as written, from the outermost layer in; a directive is
hidden when a layer further in has one of its name. -/
def visibleDirectives : List Layer → List Directive
  | [] => []
  | l :: outer =>
    (visibleDirectives outer).filter (!definesDirective l.directives ·.name) ++ l.directives

theorem get?_visibleBindings (name : String) (layers : List Layer) :
    (visibleBindings layers).get? name = lookupVariable name layers := by
  induction layers with
  | nil => rfl
  | cons l outer ih =>
    rw [visibleBindings, lookupVariable, Table.get?_overlay, ih]

/-! ### Scopes -/

/-- The layer of a block and the layers around it, innermost first. -/
structure Scope where
  own : Layer := {}
  enclosing : List Layer := []
deriving DecidableEq

namespace Scope

/-- The layers of a scope, innermost first. -/
def layers (s : Scope) : List Layer := s.own :: s.enclosing

/-- The scope of an empty block inside. -/
def child (s : Scope) : Scope := { enclosing := s.layers }

/-- Writes the visible variables and directives into the scope's own layer: first each value
has the visible values put in, then each argument has these new values put in. -/
def settle (s : Scope) : Scope :=
  let visible := visibleBindings s.layers
  let bindings := visible.substitution.applyTable [] visible
  let σ := bindings.substitution
  { s with
    own :=
      { s.own with
        bindings
        settled := (visibleDirectives s.layers).map (·.substitute σ) } }

@[simp] theorem settle_directives (s : Scope) : s.settle.own.directives = s.own.directives := rfl

@[simp] theorem settle_enclosing (s : Scope) : s.settle.enclosing = s.enclosing := rfl

end Scope

end HostRules
