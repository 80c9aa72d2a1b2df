/-
HostRules/Proofs/Chains.lean

Chains of scopes, and the directives that are visible along them.

Design.  A chain is told by its history, one list of actions.  To `enter` is to go on in an empty
scope inside; the scopes around are not touched any more, so all that follows belongs to the
scope inside, up to the next `enter`.  Which of the scopes around have been settled is a part of
the history, and any of them may have been.

The model hides directives one layer at a time, in lists that are put together already.  The list
that comes out has a closed form (`unhidden`): each level keeps what no level further in names.
Both ways to put it together agree, since a level can be added behind the others
(`unhidden_concat`) as well as before them.

Main result: along every history the visible directives are the closed form of what was written,
settled or not, and settling only puts values into their arguments
(`Scope.directives_along_chain`).
-/
import HostRules.Proofs.Hosts

namespace HostRules

/-! ### Histories -/

/-- What can happen to a scope. -/
inductive ScopeAction where
  | declare (name : String) (v : Value String)
  | addDirective (d : Directive)
  | settle
  /-- Goes on in an empty scope inside. -/
  | enter
deriving DecidableEq

namespace Scope

/-- The scope behind an action. -/
def act (s : Scope) : ScopeAction → Scope
  | .declare name v => { s with own := s.own.declare name v }
  | .addDirective d => { s with own := s.own.addDirective d }
  | .settle => s.settle
  | .enter => s.child

/-- The scope behind some actions, one after the other. -/
def run (s : Scope) (actions : List ScopeAction) : Scope := actions.foldl act s

@[simp] theorem run_nil (s : Scope) : s.run [] = s := rfl

@[simp] theorem run_cons (s : Scope) (a : ScopeAction) (later : List ScopeAction) :
    s.run (a :: later) = (s.act a).run later := rfl

theorem run_append (s : Scope) (actions later : List ScopeAction) :
    s.run (actions ++ later) = (s.run actions).run later := List.foldl_append

theorem get?_act_declare (s : Scope) (name key : String) (v : Value String) :
    (s.act (.declare name v)).own.bindings.get? key =
      if key = name then some (s.own.bindings.substitution.applyValue v)
      else s.own.bindings.get? key :=
  Table.get?_insert s.own.bindings name key _

end Scope

/-! ### The directives of a chain -/

/-- The directives that are written in each scope of a chain, from the outermost scope in. -/
def writtenLevels : List ScopeAction → List (List Directive)
  | [] => [[]]
  | .addDirective d :: later => (writtenLevels later).modifyHead (d :: ·)
  | .enter :: later => [] :: writtenLevels later
  | .declare _ _ :: later => writtenLevels later
  | .settle :: later => writtenLevels later

/-- The directives of some levels, from the outermost level in; each level keeps those
whose names no level further in has. -/
def unhidden : List (List Directive) → List Directive
  | [] => []
  | ds :: inner => ds.filter (!definesDirective inner.flatten ·.name) ++ unhidden inner

/-- One more level inside hides what it names on all levels around. -/
theorem unhidden_concat (levels : List (List Directive)) (ds : List Directive) :
    unhidden (levels ++ [ds]) =
      (unhidden levels).filter (!definesDirective ds ·.name) ++ ds := by
  induction levels with
  | nil => simp [unhidden, definesDirective]
  | cons outermost inner ih =>
    -- a directive of the outermost level passes the old levels and then the new one
    have hboth : ∀ d : Directive, (!definesDirective (inner ++ [ds]).flatten d.name) =
        (!definesDirective ds d.name && !definesDirective inner.flatten d.name) := by
      intro d
      rw [List.flatten_append, List.flatten_singleton, definesDirective_append, Bool.not_or,
        Bool.and_comm]
    show outermost.filter (fun d => !definesDirective (inner ++ [ds]).flatten d.name) ++
        unhidden (inner ++ [ds]) = (outermost.filter _ ++ unhidden inner).filter _ ++ ds
    rw [ih, List.filter_append, List.filter_filter, List.append_assoc]
    simp only [hboth]

/-- What is visible through layers is what no layer further in hides. -/
theorem visibleDirectives_eq_unhidden (layers : List Layer) :
    visibleDirectives layers = unhidden (layers.reverse.map (·.directives)) := by
  induction layers with
  | nil => rfl
  | cons l outer ih =>
    rw [visibleDirectives, ih, List.reverse_cons, List.map_append]
    exact (unhidden_concat _ l.directives).symm

-- repeated names stay on one level, and are hidden together
example : unhidden
      [[⟨"log", ["1"]⟩, ⟨"allow", ["2"]⟩, ⟨"log", ["3"]⟩], [⟨"gzip", []⟩], [⟨"allow", ["4"]⟩]] =
    [⟨"log", ["1"]⟩, ⟨"log", ["3"]⟩, ⟨"gzip", []⟩, ⟨"allow", ["4"]⟩] := by
  decide

namespace Scope

/-- A history adds what it writes to the scope that it begins in, and goes on further in. -/
theorem directives_run (s : Scope) (actions : List ScopeAction) :
    (s.run actions).layers.reverse.map (·.directives) =
      s.enclosing.reverse.map (·.directives) ++
        (writtenLevels actions).modifyHead (s.own.directives ++ ·) := by
  induction actions generalizing s with
  | nil => simp [layers, writtenLevels]
  | cons a later ih =>
    rw [run_cons, ih]
    cases a with
    | declare name v => rfl
    | addDirective d =>
      have hsnoc : (fun ds => (s.own.directives ++ [d]) ++ ds) =
          (s.own.directives ++ ·) ∘ (d :: ·) := by
        funext ds
        exact List.append_assoc _ [d] ds
      show _ ++ (writtenLevels later).modifyHead (fun ds => (s.own.directives ++ [d]) ++ ds) =
        _ ++ ((writtenLevels later).modifyHead (d :: ·)).modifyHead (s.own.directives ++ ·)
      rw [hsnoc, List.modifyHead_modifyHead]
      rfl
    | settle => rfl
    | enter =>
      -- the scope left behind is the innermost of those around
      show (s.own :: s.enclosing).reverse.map (·.directives) ++
          (writtenLevels later).modifyHead id = _ ++ (s.own.directives ++ []) :: writtenLevels later
      rw [List.modifyHead_id, List.append_nil, List.reverse_cons, List.map_append,
        List.append_assoc]
      rfl

end Scope

/-- Settling writes no directives. -/
theorem writtenLevels_unsettled (actions : List ScopeAction) :
    writtenLevels (actions.filter (· != .settle)) = writtenLevels actions := by
  induction actions with
  | nil => rfl
  | cons a later ih =>
    cases a with
    | declare name v => exact ih
    | addDirective d => exact congrArg (List.modifyHead (d :: ·)) ih
    | settle => exact ih
    | enter => exact congrArg ([] :: ·) ih

/-- **Directives along a chain of scopes.**  From the outermost scope in, each scope contributes
the directives written in it whose names are written in no scope further in, in their order; it
makes no difference which scopes have been settled on the way.  Settling the scope takes these
directives under their names and puts the scope's new values into each of their arguments, and
leaves what was written in it and around it. -/
theorem Scope.directives_along_chain (actions : List ScopeAction) :
    let s := ({} : Scope).run actions
    let unsettled := ({} : Scope).run (actions.filter (· != .settle))
    let visible := unhidden (writtenLevels actions)
    let σ := s.settle.own.bindings.substitution
    visibleDirectives s.layers = visible ∧ visibleDirectives unsettled.layers = visible ∧
      s.settle.own.settled = visible.map (fun d => ⟨d.name, d.arguments.map σ.apply⟩) ∧
      s.settle.layers.map (·.directives) = s.layers.map (·.directives) := by
  intro s unsettled visible σ
  have hvisible : ∀ history : List ScopeAction,
      visibleDirectives (({} : Scope).run history).layers = unhidden (writtenLevels history) := by
    intro history
    rw [visibleDirectives_eq_unhidden, directives_run]
    show unhidden ((writtenLevels history).modifyHead id) = _
    rw [List.modifyHead_id]
    rfl
  refine ⟨hvisible actions, ?_, ?_, rfl⟩
  · show visibleDirectives (({} : Scope).run _).layers = unhidden (writtenLevels actions)
    rw [hvisible, writtenLevels_unsettled]
  · exact congrArg (List.map (Directive.substitute _)) (hvisible actions)

end HostRules
