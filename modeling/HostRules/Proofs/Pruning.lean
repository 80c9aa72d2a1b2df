/-
HostRules/Proofs/Pruning.lean

Misplaced blocks are dropped, and every drop is told.  A block that does not belong where it stands
is passed over with all that is in it; `RuleFile.prune` deletes these blocks, at all levels, and
`RuleFile.pruned` lists them.

    resolve (prune f) = resolve f,   the counts of the warnings add up to what prune deletes

Design.  What is dropped and what is counted are told in two ways: resolving looks only for domain
blocks in the global block and for location blocks in domain blocks, while the warnings ask each
block for the kind it may stand in.  Both are compared with `Statement.belongs`: the blocks that
resolving finds in a pruned body are the pruned ones it finds in the body (`domainBlocks_prune`,
`locationBlocks_prune`), and the number of those that are deleted is the number of misplaced ones
there and in the blocks that stay (`length_prunedBody`).

Main result: `RuleFile.resolve_prune`.
-/
import Mathlib.Algebra.Ring.Nat
import HostRules.Log
import HostRules.Proofs.Headers
import HostRules.Proofs.Parsed
import HostRules.Proofs.Siblings
import HostRules.Regex.Standard

namespace HostRules

/-! ### Counting what is ignored -/

theorem Statement.sum_filterMap {α β : Type} (k : α → Option β) (weight : β → Nat)
    (items : List α) :
    ((items.filterMap k).map weight).sum =
      (items.map fun item => ((k item).map weight).getD 0).sum := by
  induction items with
  | nil => rfl
  | cons item items ih =>
    rw [List.filterMap_cons, List.map_cons, List.sum_cons, ← ih]
    cases k item with
    | none => exact (Nat.zero_add _).symm
    | some b => rfl

namespace Event

/-- Whether an event warns of blocks that are passed over. -/
def Ignores (e : Event) : Prop :=
  e.level = .warn ∧ e.message = "ignoring blocks nested at the wrong depth"

instance (e : Event) : Decidable e.Ignores := inferInstanceAs (Decidable (_ ∧ _))

/-- The number in the field `count` of an event. -/
def count (e : Event) : Nat :=
  match e.fields.lookup "count" with
  | some (.number n) => n
  | _ => 0

theorem ignores_iff {e : Event} : e.Ignores ↔ ∃ count scope, e = .misplacedBlocks count scope := by
  unfold Ignores
  cases e <;> simp [level, message]

theorem filter_ignores_eq_nil {log : List Event}
    (h : ∀ e ∈ log, ∀ count scope, e ≠ .misplacedBlocks count scope) :
    log.filter (·.Ignores) = [] := by
  refine List.filter_eq_nil_iff.mpr fun e he hignores => ?_
  obtain ⟨count, scope, rfl⟩ := ignores_iff.mp (of_decide_eq_true hignores)
  exact h _ he count scope rfl

end Event

section

variable [Regex.Dialect]

/-! ### Pruning -/

namespace Statement

/-- Whether a statement can stand in a block of the kind `scope`: the global block holds no
location block, a domain block no domain block, and a location block no block at all. -/
def belongs (scope : BlockKind) (s : Statement) : Bool :=
  match scope with
  | .global => s.location?.isNone
  | .domain => s.domain?.isNone
  | .location => s.blockKind?.isNone

mutual

/-- A statement without the misplaced blocks inside it. -/
def prune : Statement → Statement
  | domain names body => .domain names (pruneBody .domain body)
  | location pattern body => .location pattern (pruneBody .location body)
  | call directive arguments => .call directive arguments
  | declare name value => .declare name value
  | rule source target => .rule source target

/-- The body of a block of the kind `scope` without the misplaced blocks. -/
def pruneBody (scope : BlockKind) : List Statement → List Statement
  | [] => []
  | s :: more => if s.belongs scope then s.prune :: pruneBody scope more else pruneBody scope more

end

mutual

/-- The misplaced blocks inside a statement; what stands inside one of them goes with it. -/
def pruned : Statement → List Statement
  | domain _ body => prunedBody .domain body
  | location _ body => prunedBody .location body
  | call _ _ | declare _ _ | rule _ _ => []

/-- The misplaced blocks in the body of a block of the kind `scope`. -/
def prunedBody (scope : BlockKind) : List Statement → List Statement
  | [] => []
  | s :: more => (if s.belongs scope then s.pruned else [s]) ++ prunedBody scope more

end

end Statement

/-- A rule file without its misplaced blocks. -/
def RuleFile.prune (f : RuleFile) : RuleFile := ⟨Statement.pruneBody .global f.body⟩

/-- The misplaced blocks of a rule file. -/
def RuleFile.pruned (f : RuleFile) : List Statement := Statement.prunedBody .global f.body

namespace Statement

variable {scope : BlockKind}

/-- The kinds of blocks that belong in a block of the kind `scope` are those that may stand
directly inside it. -/
theorem belongs_eq (scope : BlockKind) (s : Statement) :
    s.belongs scope = !s.blockKind?.any (·.parent? != some scope) := by
  cases scope <;> cases s <;> rfl

mutual

/-- The blocks inside a statement are those that pruning leaves and those that it deletes. -/
theorem headers_prune : ∀ s : Statement,
    s.headers.Perm (s.prune.headers ++ bodyHeaders s.pruned)
  | domain _ body => (headers_pruneBody .domain body).cons _
  | location _ body => (headers_pruneBody .location body).cons _
  | call _ _ | declare _ _ | rule _ _ => .nil

theorem headers_pruneBody (scope : BlockKind) : ∀ body : List Statement,
    (bodyHeaders body).Perm
      (bodyHeaders (pruneBody scope body) ++ bodyHeaders (prunedBody scope body))
  | [] => .nil
  | s :: more => by
    have hmore := headers_pruneBody scope more
    rw [pruneBody, prunedBody]
    split
    · -- `s` stays and is pruned itself: what goes from it is counted before what goes from `more`
      rw [bodyHeaders, bodyHeaders, bodyHeaders_append]
      refine ((headers_prune s).append hmore).trans ?_
      rw [List.append_assoc, List.append_assoc]
      exact (List.perm_append_comm_assoc _ _ _).append_left _
    · -- `s` goes with all that stands inside of it
      have hs : bodyHeaders [s] = s.headers := List.append_nil _
      rw [bodyHeaders, bodyHeaders_append, hs]
      exact (hmore.append_left _).trans (List.perm_append_comm_assoc _ _ _)

end

/-! ### What pruning deletes -/

theorem misplacedCount_cons (scope : BlockKind) (s : Statement) (more : List Statement) :
    misplacedCount scope (s :: more) =
      (if s.belongs scope then 0 else 1) + misplacedCount scope more := by
  unfold misplacedCount
  rw [belongs_eq, List.filterMap_cons]
  -- only a block can be misplaced
  cases s.blockKind? with
  | none => exact (Nat.zero_add _).symm
  | some kind =>
    rw [List.countP_cons, Nat.add_comm]
    cases h : kind.parent? != some scope <;> simp [h]

/-- The misplaced blocks of a body are those that stand in it directly and those inside the blocks
that stay. -/
theorem length_prunedBody (scope : BlockKind) (body : List Statement) :
    (prunedBody scope body).length = misplacedCount scope body +
      (body.map fun s => if s.belongs scope then s.pruned.length else 0).sum := by
  -- along the body: a misplaced block counts once, however many stand inside of it, and any other
  -- statement counts what is misplaced inside
  induction body with
  | nil => rfl
  | cons s more ih =>
    rw [prunedBody, List.length_append, ih, misplacedCount_cons, List.map_cons, List.sum_cons]
    split
    · omega
    · rw [List.length_singleton]
      omega

/-- The same, where the blocks that stay are those that `inside?` finds, of the kind `inner`. -/
theorem length_prunedBody_inside {η : Type} {inner : BlockKind}
    {inside? : Statement → Option (η × List Statement)}
    (hinside : ∀ s : Statement, (if s.belongs scope then s.pruned.length else 0) =
      ((inside? s).map fun b => (prunedBody inner b.2).length).getD 0) (body : List Statement) :
    (prunedBody scope body).length = misplacedCount scope body +
      ((body.filterMap inside?).map fun b => (prunedBody inner b.2).length).sum := by
  rw [length_prunedBody, sum_filterMap]
  simp only [hinside]

theorem length_pruned_global (body : List Statement) :
    (prunedBody .global body).length = misplacedCount .global body +
      ((domainBlocks body).map fun b => (prunedBody .domain b.2).length).sum :=
  length_prunedBody_inside (fun s => by cases s <;> rfl) body

theorem length_pruned_domain (body : List Statement) :
    (prunedBody .domain body).length = misplacedCount .domain body +
      ((locationBlocks body).map fun b => (prunedBody .location b.2).length).sum :=
  length_prunedBody_inside (fun s => by cases s <;> rfl) body

/-- No block stays in a location block. -/
theorem length_pruned_location (body : List Statement) :
    (prunedBody .location body).length = misplacedCount .location body := by
  have hinside : ∀ s : Statement, (if s.belongs .location then s.pruned.length else 0) = 0 := by
    intro s
    cases s <;> rfl
  rw [length_prunedBody]
  simp [hinside]

/-! ### What resolving finds in a pruned body -/

variable {γ : Type} {g : Statement → Option γ}

/-- What says nothing of misplaced blocks says of a pruned body what it says of the pruned
statements. -/
theorem filterMap_pruneBody (hg : ∀ s : Statement, s.belongs scope = false → g s.prune = none)
    (body : List Statement) :
    (pruneBody scope body).filterMap g = body.filterMap fun s => g s.prune := by
  induction body with
  | nil => rfl
  | cons s more ih =>
    rw [pruneBody, List.filterMap_cons]
    cases hs : s.belongs scope with
    | true => rw [if_pos rfl, List.filterMap_cons, ih]
    | false => rw [if_neg Bool.false_ne_true, ih, hg s hs]

/-- The blocks that `inside?` finds in a pruned body are the pruned ones that it finds in the body,
when it does not look at misplaced blocks. -/
theorem filterMap_pruneBody_inside {η : Type} {inner : BlockKind}
    {inside? : Statement → Option (η × List Statement)}
    (hmisplaced : ∀ s : Statement, s.belongs scope = false → inside? s.prune = none)
    (hprune : ∀ s : Statement,
      inside? s.prune = (inside? s).map fun b => (b.1, pruneBody inner b.2))
    (body : List Statement) :
    (pruneBody scope body).filterMap inside? =
      (body.filterMap inside?).map fun b => (b.1, pruneBody inner b.2) := by
  rw [filterMap_pruneBody hmisplaced, List.map_filterMap]
  simp only [hprune]

theorem domainBlocks_prune (body : List Statement) :
    domainBlocks (pruneBody .global body) =
      (domainBlocks body).map fun b => (b.1, pruneBody .domain b.2) := by
  refine filterMap_pruneBody_inside ?_ (fun s => by cases s <;> rfl) body
  intro s hs
  cases s <;> first | rfl | cases hs

theorem locationBlocks_prune (body : List Statement) :
    locationBlocks (pruneBody .domain body) =
      (locationBlocks body).map fun b => (b.1, pruneBody .location b.2) := by
  refine filterMap_pruneBody_inside ?_ (fun s => by cases s <;> rfl) body
  intro s hs
  cases s <;> first | rfl | cases hs

/-- Only blocks are deleted. -/
theorem withoutBlocks_prune (scope : BlockKind) (body : List Statement) :
    withoutBlocks (pruneBody scope body) = withoutBlocks body := by
  unfold withoutBlocks
  -- a statement that is no block is not changed, and belongs everywhere
  rw [← List.filterMap_eq_filter, filterMap_pruneBody]
  · congr 1
    funext s
    cases s <;> rfl
  · intro s hs
    cases scope <;> cases s <;> first | rfl | cases hs

end Statement

/-! ### The configuration -/

theorem Scope.ofBody_pruneBody (scope : BlockKind) (enclosing : List Layer)
    (body : List Statement) :
    Scope.ofBody enclosing (Statement.pruneBody scope body) = Scope.ofBody enclosing body :=
  Scope.ofBody_congr (Statement.withoutBlocks_prune scope body) enclosing

theorem Scope.rules_pruneBody (scope : BlockKind) (s : Scope) (body : List Statement) :
    s.rules (Statement.pruneBody scope body) = s.rules body :=
  Scope.rules_congr (Statement.withoutBlocks_prune scope body) s

/-- A domain block is resolved as without its misplaced blocks. -/
theorem HostBlock.resolve_pruneBody (s : Scope) (names : List String) (body : List Statement) :
    resolve s names (Statement.pruneBody .domain body) = resolve s names body := by
  -- its location blocks are pruned ones, and no scope looks at the blocks of its body
  unfold resolve
  simp only [Statement.locationBlocks_prune, List.map_map, List.flatMap_map, Function.comp_def,
    Scope.ofBody_pruneBody, Scope.rules_pruneBody]

theorem RuleFile.resolution_prune (f : RuleFile) : f.prune.resolution = f.resolution := by
  have hscope : f.prune.scope = f.scope := Scope.ofBody_pruneBody .global [] f.body
  have hblocks : domainBlocks f.prune.body =
      (domainBlocks f.body).map fun b => (b.1, Statement.pruneBody .domain b.2) :=
    Statement.domainBlocks_prune f.body
  have hrules : ∀ s : Scope, s.rules f.prune.body = s.rules f.body :=
    fun s => s.rules_pruneBody .global f.body
  unfold resolution
  simp only [hscope, hblocks, hrules, List.map_map, Function.comp_def, HostBlock.resolve_pruneBody]

/-! ### The warnings -/

theorem filter_misplacedEvents (scope : BlockKind) (body : List Statement) :
    (misplacedEvents scope body).filter (·.Ignores) = misplacedEvents scope body := by
  unfold misplacedEvents
  dsimp only
  split <;> rfl

/-- A domain block warns of what it passes over, and so do its location blocks. -/
theorem filter_domainEvents (hosts : List String) (body : List Statement) :
    (domainEvents hosts body).filter (·.Ignores) =
      misplacedEvents .domain body ++
        (locationBlocks body).flatMap fun l => misplacedEvents .location l.2 := by
  have hresolved : [Event.resolvedDomain hosts].filter (·.Ignores) = [] := rfl
  rw [domainEvents, List.filter_append, List.filter_append, List.filter_flatMap, hresolved,
    List.append_nil]
  simp only [filter_misplacedEvents]

theorem filter_repeatedEvents (c : Config) (domains : List Domain) :
    (repeatedEvents c domains).filter (·.Ignores) = [] := by
  induction domains generalizing c with
  | nil => rfl
  | cons d more ih =>
    rw [repeatedEvents, List.filter_append, ih]
    split <;> rfl

/-- The blocks that a body passes over are counted in one warning, if there are any. -/
theorem sum_count_misplacedEvents (scope : BlockKind) (body : List Statement) :
    ((misplacedEvents scope body).map (·.count)).sum = misplacedCount scope body := by
  unfold misplacedEvents
  dsimp only
  split
  · exact Nat.add_zero _
  · next hzero => exact (Nat.eq_zero_of_not_pos hzero).symm

theorem count_misplacedEvents (scope : BlockKind) (body : List Statement) :
    ∀ e ∈ misplacedEvents scope body, 0 < e.count := by
  unfold misplacedEvents
  dsimp only
  split
  · next hpos => exact List.forall_mem_singleton.mpr hpos
  · exact List.forall_mem_nil _

namespace RuleFile

/-- The warnings of a rule file that blocks are passed over, in order. -/
def ignoring (f : RuleFile) : List Event :=
  misplacedEvents .global f.body ++
    (domainBlocks f.body).flatMap fun b =>
      misplacedEvents .domain b.2 ++
        (locationBlocks b.2).flatMap fun l => misplacedEvents .location l.2

theorem filter_log (passthrough : String) (f : RuleFile) :
    (f.log passthrough).filter (·.Ignores) = f.ignoring := by
  have hhosts : ((f.resolution.rules.filter (·.host == "")).map fun r =>
      Event.noHost r.source).filter (·.Ignores) = [] := by
    refine Event.filter_ignores_eq_nil fun e he => ?_
    obtain ⟨r, -, rfl⟩ := List.mem_map.mp he
    intro count scope h
    cases h
  -- a block is logged by its resolved and its written form, side by side
  have hzip : f.resolution.blocks.zip (domainBlocks f.body) =
      (domainBlocks f.body).map fun b => (HostBlock.resolve f.scope b.1 b.2, b) := by
    rw [resolution_blocks]
    have hmap := List.zip_map' (f := fun b => HostBlock.resolve f.scope b.1 b.2) (g := id)
      (l := domainBlocks f.body)
    rwa [List.map_id] at hmap
  unfold log ignoring
  dsimp only
  rw [List.filter_append, List.filter_append, List.filter_append, hhosts, filter_repeatedEvents,
    filter_misplacedEvents, List.filter_flatMap, hzip, List.flatMap_map, List.append_nil,
    List.append_nil]
  simp only [filter_domainEvents]

/-- The warnings count the blocks that pruning deletes. -/
theorem sum_count_ignoring (f : RuleFile) : (f.ignoring.map (·.count)).sum = f.pruned.length := by
  have hsum : ∀ {α : Type} (items : List α) (g : α → List Nat),
      (items.flatMap g).sum = (items.map fun item => (g item).sum).sum := by
    intro α items g
    rw [List.flatMap_def, List.sum_flatten, List.map_map]
    rfl
  -- block by block, both sides count what each level passes over and what the level below does
  rw [pruned, Statement.length_pruned_global]
  simp only [ignoring, List.map_append, List.sum_append, List.map_flatMap, hsum,
    sum_count_misplacedEvents, Statement.length_pruned_domain, Statement.length_pruned_location]

theorem count_ignoring (f : RuleFile) : ∀ e ∈ f.ignoring, 0 < e.count := by
  refine List.forall_mem_append.mpr ⟨count_misplacedEvents _ _, ?_⟩
  refine List.forall_mem_flatMap.mpr fun b _ => ?_
  refine List.forall_mem_append.mpr ⟨count_misplacedEvents _ _, ?_⟩
  exact List.forall_mem_flatMap.mpr fun l _ => count_misplacedEvents _ _

end RuleFile

/-! ### Well-formed files -/

namespace Statement

mutual

/-- A statement that can be written belongs where it stands, and so do all blocks inside it. -/
theorem prune_of_wellFormed : ∀ (s : Statement) {scope : BlockKind}, s.WellFormed scope →
    s.belongs scope = true ∧ s.prune = s ∧ s.pruned = []
  | domain names body, _, ⟨hscope, _, _, hbody⟩ => by
    obtain ⟨hprune, hpruned⟩ := pruneBody_of_wellFormed body hbody
    refine ⟨by rw [hscope]; rfl, ?_, hpruned⟩
    rw [prune, hprune]
  | location pattern body, _, ⟨hscope, _, hbody⟩ => by
    obtain ⟨hprune, hpruned⟩ := pruneBody_of_wellFormed body hbody
    refine ⟨by rw [hscope]; rfl, ?_, hpruned⟩
    rw [prune, hprune]
  | call _ _, scope, _ | declare _ _, scope, _ | rule _ _, scope, _ => by
    refine ⟨?_, rfl, rfl⟩
    cases scope <;> rfl

theorem pruneBody_of_wellFormed : ∀ (body : List Statement) {scope : BlockKind},
    BodyWellFormed scope body → pruneBody scope body = body ∧ prunedBody scope body = []
  | [], _, _ => ⟨rfl, rfl⟩
  | s :: more, _, ⟨hs, hmore⟩ => by
    obtain ⟨hbelongs, hprune, hpruned⟩ := prune_of_wellFormed s hs
    obtain ⟨hprunes, hpruneds⟩ := pruneBody_of_wellFormed more hmore
    rw [pruneBody, prunedBody, if_pos hbelongs, if_pos hbelongs, hprune, hpruned, hprunes, hpruneds]
    exact ⟨rfl, rfl⟩

end

end Statement

namespace RuleFile

/-- **Misplaced blocks are dropped, and every drop is told.**  A rule file, however its blocks are
nested, has the configuration of the file without its misplaced blocks.  These and the ones that
stay are all its blocks; and the counts in the warnings that resolving gives add up to the number of
misplaced blocks, those inside of others not counted.  A file that is read gives no such warning and
has no misplaced block. -/
theorem resolve_prune (passthrough : String) (f : RuleFile) :
    f.prune.resolve passthrough = f.resolve passthrough ∧
    f.headers.Perm (f.prune.headers ++ Statement.bodyHeaders f.pruned) ∧
    (((f.log passthrough).filter (·.Ignores)).map (·.count)).sum = f.pruned.length ∧
    ∀ source, parse source = .ok f → (∀ e ∈ f.log passthrough, ¬ e.Ignores) ∧ f.prune = f := by
  refine ⟨?_, Statement.headers_pruneBody .global f.body, ?_, ?_⟩
  · unfold resolve domains
    rw [resolution_prune]
  · rw [filter_log, sum_count_ignoring]
  · intro source h
    obtain ⟨hprune, hpruned⟩ :=
      Statement.pruneBody_of_wellFormed f.body (parse_wellFormed source f h).1
    refine ⟨fun e he hignores => ?_, ?_⟩
    · -- a warning would count at least one block, but the counts add up to none
      have hmem : e ∈ f.ignoring := by
        rw [← filter_log passthrough]
        exact List.mem_filter.mpr ⟨he, decide_eq_true hignores⟩
      have hzero : (f.ignoring.map (·.count)).sum = 0 := by
        rw [sum_count_ignoring, pruned, hpruned]
        rfl
      have hnone := List.sum_eq_zero_iff_forall_eq_nat.mp hzero _ (List.mem_map_of_mem hmem)
      exact absurd hnone (Nat.ne_of_gt (f.count_ignoring e hmem))
    · rw [prune, hprune]

end RuleFile

end

namespace RuleFile

/-- A location block in the global block, a domain block in a domain block, and two blocks in a
location block. -/
def misnestedSample : RuleFile where
  body :=
    [.location (.path "/g") [.domain ["a.com"] []],
      .domain ["b.com"]
        [.domain ["c.com"] [.location (.path "/c") []],
          .location (.path "/b") [.location (.path "/d") [], .domain ["e.com"] []]]]

/-- Four blocks are misplaced, and what stands inside of two of them is not counted. -/
theorem resolve_prune_misnestedSample :
    (((misnestedSample.log "proxy_pass").filter (·.Ignores)).map (·.count)).sum = 4 ∧
    misnestedSample.headers.length = 8 ∧
    ∃ f, parse crowdedSample = .ok f ∧
      (∀ e ∈ f.log "proxy_pass", ¬ e.Ignores) ∧ f.prune = f := by
  obtain ⟨f, hf, -⟩ : ∃ f, parse crowdedSample = .ok f ∧ True := exists_parse (by decide +kernel)
  refine ⟨?_, rfl, f, hf, (resolve_prune "proxy_pass" f).2.2.2 crowdedSample hf⟩
  rw [(resolve_prune "proxy_pass" misnestedSample).2.2.1]
  rfl

end RuleFile

end HostRules
