/-
HostRules/Proofs/Reordering.lean

Which order of statements matters.  Variables, directives, rules, domain blocks and location
blocks are gathered from a body one kind at a time, so only the order within a kind can show
(`BodyReordered.forall₂_filterMap`).  A variable may be declared behind the block, the rule or
the directive that uses it.

Design.  A body is reordered when its statements of each kind are, in order, those of the other
body; blocks may in turn have their bodies reordered, at any depth.  Resolving looks at a body
and at the bodies in its blocks, each time through one kind of statement.

Main result: `RuleFile.resolve_reordered`.
-/
import Mathlib.Data.List.Forall2
import HostRules.Proofs.Printer
import HostRules.Regex.Standard
import HostRules.Resolve

namespace HostRules

/-! ### Kinds of statement -/

/-- The kinds of statement. -/
inductive StatementKind where
  | domain
  | location
  | call
  | declare
  | rule
deriving DecidableEq

section

variable [Regex.Dialect]

/-- The kind of a statement. -/
def Statement.kind : Statement → StatementKind
  | domain _ _ => .domain
  | location _ _ => .location
  | call _ _ => .call
  | declare _ _ => .declare
  | rule _ _ => .rule

/-- The statements of one kind in a body, in order. -/
def ofKind (kind : StatementKind) (body : List Statement) : List Statement :=
  body.filter (·.kind == kind)

/-! ### Reordered bodies -/

mutual

/-- Two statements are the same, but for the order of statements in blocks. -/
inductive Statement.Reordered : Statement → Statement → Prop
  | domain {names body body'} :
      BodyReordered body body' → Statement.Reordered (.domain names body) (.domain names body')
  | location {pattern body body'} : BodyReordered body body' →
      Statement.Reordered (.location pattern body) (.location pattern body')
  | call {directive arguments} :
      Statement.Reordered (.call directive arguments) (.call directive arguments)
  | declare {name value} : Statement.Reordered (.declare name value) (.declare name value)
  | rule {source target} : Statement.Reordered (.rule source target) (.rule source target)

/-- Two bodies have the same statements of each kind in the same order, with the bodies of
blocks reordered. -/
inductive BodyReordered : List Statement → List Statement → Prop
  | intro {body body'} :
      (∀ kind, List.Forall₂ Statement.Reordered (ofKind kind body) (ofKind kind body')) →
      BodyReordered body body'

end

variable {body body' : List Statement}

/-- What is gathered from the statements of one kind is not changed by reordering, up to what
becomes of a single statement. -/
theorem BodyReordered.forall₂_filterMap {γ : Type} {g : Statement → Option γ} {R : γ → γ → Prop}
    (kind : StatementKind) (h : BodyReordered body body')
    (hkind : ∀ s, s.kind ≠ kind → g s = none)
    (hg : ∀ s s', s.Reordered s' → Option.Rel R (g s) (g s')) :
    List.Forall₂ R (body.filterMap g) (body'.filterMap g) := by
  obtain ⟨hkinds⟩ := h
  -- what `g` gives nothing for may be left out first, and that is all but one kind
  have hgathered : ∀ b : List Statement, (ofKind kind b).filterMap g = b.filterMap g := by
    intro b
    unfold ofKind
    rw [List.filterMap_filter]
    congr 1
    funext s
    by_cases hs : s.kind = kind
    · rw [if_pos (beq_iff_eq.mpr hs)]
    · rw [if_neg (by simpa using hs), hkind s hs]
  rw [← hgathered body, ← hgathered body']
  exact List.rel_filterMap (fun s s' hs => hg s s' hs) (hkinds kind)

/-- The same where a single statement, reordered, gives the same. -/
theorem BodyReordered.filterMap_eq {γ : Type} {g : Statement → Option γ} (kind : StatementKind)
    (h : BodyReordered body body') (hkind : ∀ s, s.kind ≠ kind → g s = none)
    (hg : ∀ s s', s.Reordered s' → g s = g s') : body.filterMap g = body'.filterMap g := by
  have hrel : ∀ s s', s.Reordered s' → Option.Rel Eq (g s) (g s') := by
    intro s s' hs
    rw [hg s s' hs]
    cases g s' with
    | none => exact .none
    | some c => exact .some rfl
  have hall := h.forall₂_filterMap kind hkind hrel
  rwa [List.forall₂_eq_eq_eq] at hall

/-! ### What is gathered from a body -/

/-- Two blocks have the same header, and reordered bodies. -/
def BlockReordered {η : Type} (b b' : η × List Statement) : Prop :=
  b.1 = b'.1 ∧ BodyReordered b.2 b'.2

namespace BodyReordered

theorem declarations (h : BodyReordered body body') :
    body.filterMap Statement.declaration? = body'.filterMap Statement.declaration? := by
  refine h.filterMap_eq .declare ?_ ?_
  · intro s hs
    cases s <;> first | rfl | exact absurd rfl hs
  · intro s s' hs
    cases hs <;> rfl

theorem directives (h : BodyReordered body body') :
    body.filterMap Statement.directive? = body'.filterMap Statement.directive? := by
  refine h.filterMap_eq .call ?_ ?_
  · intro s hs
    cases s <;> first | rfl | exact absurd rfl hs
  · intro s s' hs
    cases hs <;> rfl

theorem rules (h : BodyReordered body body') :
    body.filterMap Statement.rule? = body'.filterMap Statement.rule? := by
  refine h.filterMap_eq .rule ?_ ?_
  · intro s hs
    cases s <;> first | rfl | exact absurd rfl hs
  · intro s s' hs
    cases hs <;> rfl

theorem domainBlocks (h : BodyReordered body body') :
    List.Forall₂ BlockReordered (domainBlocks body) (domainBlocks body') := by
  refine h.forall₂_filterMap .domain ?_ ?_
  · intro s hs
    cases s <;> first | rfl | exact absurd rfl hs
  · intro s s' hs
    cases hs with
    | domain hbody => exact .some ⟨rfl, hbody⟩
    | location | call | declare | rule => exact .none

theorem locationBlocks (h : BodyReordered body body') :
    List.Forall₂ BlockReordered (locationBlocks body) (locationBlocks body') := by
  refine h.forall₂_filterMap .location ?_ ?_
  · intro s hs
    cases s <;> first | rfl | exact absurd rfl hs
  · intro s s' hs
    cases hs with
    | location hbody => exact .some ⟨rfl, hbody⟩
    | domain | call | declare | rule => exact .none

end BodyReordered

/-! ### Resolving reordered bodies -/

theorem Scope.ofBody_reordered (h : BodyReordered body body') (enclosing : List Layer) :
    Scope.ofBody enclosing body = Scope.ofBody enclosing body' := by
  unfold ofBody Layer.ofBody
  rw [h.declarations, h.directives]

theorem Scope.rules_reordered (h : BodyReordered body body') (s : Scope) :
    s.rules body = s.rules body' := by
  unfold rules
  rw [h.rules]

omit [Regex.Dialect] in
theorem map_eq_of_forall₂ {α β : Type} {R : α → α → Prop} {f : α → β} {l l' : List α}
    (h : List.Forall₂ R l l') (hf : ∀ a a', R a a' → f a = f a') : l.map f = l'.map f := by
  induction h with
  | nil => rfl
  | cons hR _ ih => rw [List.map_cons, List.map_cons, hf _ _ hR, ih]

theorem HostBlock.resolve_eq_of_reordered (h : BodyReordered body body') (s : Scope)
    (names : List String) : resolve s names body = resolve s names body' := by
  -- a scope is made of declarations and directives, and these are two kinds; so the blocks inside
  -- meet the same scope and may be compared one by one
  have hscope := Scope.ofBody_reordered h s.layers
  have hlocations : ∀ outer : Scope,
      (locationBlocks body).map (fun l => (Scope.ofBody outer.layers l.2).location l.1) =
        (locationBlocks body').map fun l => (Scope.ofBody outer.layers l.2).location l.1 := by
    intro outer
    refine map_eq_of_forall₂ h.locationBlocks ?_
    rintro ⟨pattern, inner⟩ ⟨pattern', inner'⟩ ⟨rfl, hinner⟩
    rw [Scope.ofBody_reordered hinner]
  have hrules : ∀ outer : Scope,
      (locationBlocks body).flatMap (fun l => (Scope.ofBody outer.layers l.2).rules l.2) =
        (locationBlocks body').flatMap fun l => (Scope.ofBody outer.layers l.2).rules l.2 := by
    intro outer
    rw [List.flatMap_def, List.flatMap_def]
    congr 1
    refine map_eq_of_forall₂ h.locationBlocks ?_
    rintro ⟨pattern, inner⟩ ⟨pattern', inner'⟩ ⟨rfl, hinner⟩
    rw [Scope.ofBody_reordered hinner, Scope.rules_reordered hinner]
  unfold resolve
  simp only [List.map_map, List.flatMap_map, Function.comp_def]
  rw [hscope, hlocations, hrules, Scope.rules_reordered h]

namespace RuleFile

variable {f g : RuleFile}

theorem resolution_reordered (h : BodyReordered f.body g.body) : f.resolution = g.resolution := by
  have hscope : f.scope = g.scope := Scope.ofBody_reordered h []
  -- the global scope is the same by now, and each block is resolved in it
  have hblocks : (domainBlocks f.body).map (fun b => HostBlock.resolve g.scope b.1 b.2) =
      (domainBlocks g.body).map fun b => HostBlock.resolve g.scope b.1 b.2 := by
    refine map_eq_of_forall₂ h.domainBlocks ?_
    rintro ⟨names, inner⟩ ⟨names', inner'⟩ ⟨rfl, hinner⟩
    exact HostBlock.resolve_eq_of_reordered hinner g.scope names
  unfold resolution
  dsimp only
  rw [hscope, hblocks, Scope.rules_reordered h]

/-- **Only the order within a kind of statement matters.**  Files whose bodies, at all levels,
have the same variables, directives, rules, domain blocks and location blocks in the same order
have the same configuration, however these stand among each other. -/
theorem resolve_reordered (passthrough : String) (h : BodyReordered f.body g.body) :
    f.resolve passthrough = g.resolve passthrough := by
  unfold resolve domains
  rw [resolution_reordered h]

end RuleFile

end

namespace RuleFile

/-- The body of a location block, with its variable before or behind the directive with it. -/
def innerSample (declaredFirst : Bool) : List Statement :=
  if declaredFirst then [.declare "$d" (.scalar (.string "$c/d")), .call "root" [.string "$d"]]
  else [.call "root" [.string "$d"], .declare "$d" (.scalar (.string "$c/d"))]

/-- The body of a domain block, with its variable before or behind what mentions it. -/
def blockSample (declaredFirst : Bool) : List Statement :=
  if declaredFirst then
    [.declare "$c" (.scalar (.string "3")), .call "log" [.string "$c"],
      .rule (.string "$c.com/x") (.string "$a"), .location (.path "/$c$d") (innerSample true),
      .location (.path "/two") []]
  else
    [.location (.path "/$c$d") (innerSample false), .rule (.string "$c.com/x") (.string "$a"),
      .location (.path "/two") [], .call "log" [.string "$c"],
      .declare "$c" (.scalar (.string "3"))]

/-- A file with variables, directives, rules and blocks, in one of two orders. -/
def orderSample (declaredFirst : Bool) : RuleFile where
  body :=
    if declaredFirst then
      [.declare "$a" (.scalar (.string "1")), .declare "$b" (.list [.string "$a", .string "2"]),
        .call "log" [.string "$b"], .rule (.string "$a.com") (.string "$b"),
        .domain ["d.com", "$a.com"] (blockSample true), .domain ["e.com"] []]
    else
      [.domain ["d.com", "$a.com"] (blockSample false), .rule (.string "$a.com") (.string "$b"),
        .declare "$a" (.scalar (.string "1")), .call "log" [.string "$b"],
        .domain ["e.com"] [], .declare "$b" (.list [.string "$a", .string "2"])]

theorem resolve_reordered_orderSample :
    BodyReordered (orderSample true).body (orderSample false).body ∧
      (orderSample true).resolve "to" = (orderSample false).resolve "to" := by
  have hempty : BodyReordered [] [] := .intro fun _ => .nil
  have hinner : BodyReordered (innerSample true) (innerSample false) := by
    refine .intro fun kind => ?_
    cases kind with
    | call => exact .cons .call .nil
    | declare => exact .cons .declare .nil
    | domain | location | rule => exact .nil
  have hblock : BodyReordered (blockSample true) (blockSample false) := by
    refine .intro fun kind => ?_
    cases kind with
    | domain => exact .nil
    | location => exact .cons (.location hinner) (.cons (.location hempty) .nil)
    | call => exact .cons .call .nil
    | declare => exact .cons .declare .nil
    | rule => exact .cons .rule .nil
  have hfile : BodyReordered (orderSample true).body (orderSample false).body := by
    refine .intro fun kind => ?_
    cases kind with
    | domain => exact .cons (.domain hblock) (.cons (.domain hempty) .nil)
    | location => exact .nil
    | call => exact .cons .call .nil
    | declare => exact .cons .declare (.cons .declare .nil)
    | rule => exact .cons .rule .nil
  exact ⟨hfile, resolve_reordered "to" hfile⟩

end RuleFile

end HostRules
