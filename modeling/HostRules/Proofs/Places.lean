/-
HostRules/Proofs/Places.lean

Reading a rule file does not look at places.  Moving all tokens to other places, by any
function `g` on positions, moves the tokens of the rule file and the place of a fault and
changes nothing else:

    RuleFile.ofTokens (stream.move g) = moved g (RuleFile.move g) (RuleFile.ofTokens stream)

The proof goes from a single header and a single statement over one reading step to the fold
over all runs; each of them commutes with moving.
-/
import HostRules.Statement.Parse

namespace HostRules

/-! ### Moving tokens -/

/-- A token at other places. -/
def Token.move (g : Position → Position) (t : Token) : Token :=
  { t with span := ⟨g t.span.start, g t.span.stop⟩ }

/-- A fault at another place. -/
def Fault.move (g : Position → Position) (f : Fault) : Fault := { f with place := g f.place }

/-- A run at other places. -/
def Run.move (g : Position → Position) (r : Run) : Run :=
  ⟨r.tokens.map (·.move g), r.terminator.move g⟩

/-- Runs at other places. -/
def Runs.move (g : Position → Position) (r : Runs) : Runs :=
  ⟨r.complete.map (·.move g), r.last.map (·.move g)⟩

/-- A stream of tokens at other places. -/
def TokenStream.move (g : Position → Position) (s : TokenStream) : TokenStream :=
  ⟨s.tokens.map (·.move g), s.fault.map (·.move g)⟩

variable {g : Position → Position} {φ ψ : Token → Token}

@[simp] theorem Token.move_kind (g : Position → Position) (t : Token) :
    (t.move g).kind = t.kind := rfl

@[simp] theorem Token.move_value (g : Position → Position) (t : Token) :
    (t.move g).value = t.value := rfl

theorem withoutComments_move (tokens : List Token) :
    withoutComments (tokens.map (·.move g)) = (withoutComments tokens).map (·.move g) := by
  unfold withoutComments
  rw [List.filter_map]
  rfl

theorem Runs.cons_move (t : Token) (r : Runs) :
    Runs.cons (t.move g) (r.move g) = (Runs.cons t r).move g := by
  obtain ⟨complete, last⟩ := r
  unfold Runs.cons
  rw [Token.move_kind]
  split
  · rfl
  · cases complete <;> rfl

theorem Runs.ofTokens_move (tokens : List Token) :
    Runs.ofTokens (tokens.map (·.move g)) = (Runs.ofTokens tokens).move g := by
  induction tokens with
  | nil => rfl
  | cons t tokens ih =>
    change Runs.cons (t.move g) (Runs.ofTokens (tokens.map (·.move g))) = _
    rw [ih, Runs.cons_move]
    rfl

/-! ### Results -/

/-- A result at other places: `φ` moves what was read, and a fault moves by `g`. -/
def moved {α β : Type} (g : Position → Position) (φ : α → β) : Except Fault α → Except Fault β
  | .ok a => .ok (φ a)
  | .error f => .error (f.move g)

/-- What succeeds in two steps succeeds in both. -/
theorem ok_of_bind {α β : Type} {x : Except Fault α} {k : α → Except Fault β} {b : β}
    (h : x >>= k = .ok b) : ∃ a, x = .ok a ∧ k a = .ok b := by
  cases x with
  | error f => cases h
  | ok a => exact ⟨a, rfl, h⟩

theorem moved_bind {α α' β β' : Type} {σ : α → α'} {τ : β → β'} {x : Except Fault α}
    {k : α → Except Fault β} {k' : α' → Except Fault β'}
    (h : ∀ a, k' (σ a) = moved g τ (k a)) : moved g σ x >>= k' = moved g τ (x >>= k) := by
  cases x with
  | error f => rfl
  | ok a => exact h a

/-! ### Parts of headers -/

namespace Header

theorem namesOf_move (tokens : List Token) :
    namesOf (tokens.map (·.move g)) = namesOf tokens := by
  simp [namesOf, List.flatMap_map]

theorem nameTokens?_move (first : Token) (more : List Token) :
    nameTokens? (first.move g) (more.map (·.move g)) =
      (nameTokens? first more).map (·.map (·.move g)) := by
  have hfind : (first.move g :: more.map (·.move g)).findIdx? (·.kind == .arrow) =
      (first :: more).findIdx? (·.kind == .arrow) := by
    rw [← List.map_cons, List.findIdx?_map]
    rfl
  unfold nameTokens?
  rw [hfind, List.length_map, Token.move_kind]
  -- the tokens are cut at the arrow, which stands at the same index
  split
  · rfl
  · split
    · rw [← List.map_cons, ← List.map_take]
      rfl
    · rfl

theorem checkNesting_move (child parent : BlockKind) (place : Position) :
    checkNesting child parent (g place) = moved g id (checkNesting child parent place) := by
  unfold checkNesting
  split <;> rfl

end Header

/-! ### Moving the tokens of statements -/

variable [Regex.Dialect]

mutual

/-- A statement with a function applied to every token in it. -/
def Statement.mapTokens (φ : Token → Token) : Statement → Statement
  | .domain names body => .domain names (mapBody φ body)
  | .location pattern body => .location pattern (mapBody φ body)
  | .call directive arguments => .call directive (arguments.map φ)
  | .declare name value => .declare name (value.map φ)
  | .rule source target => .rule (φ source) (φ target)

/-- A body with a function applied to every token in it. -/
def Statement.mapBody (φ : Token → Token) : List Statement → List Statement
  | [] => []
  | s :: more => s.mapTokens φ :: mapBody φ more

end

/-- A rule file with a function applied to every token in it. -/
def RuleFile.mapTokens (φ : Token → Token) (f : RuleFile) : RuleFile :=
  ⟨f.body.map (·.mapTokens φ)⟩

/-- A block that is open, with a function applied to every token in it. -/
def OpenBlock.mapTokens (φ : Token → Token) (b : OpenBlock) : OpenBlock :=
  { b with before := b.before.map (·.mapTokens φ) }

/-- A reading state with a function applied to every token in it. -/
def ReadState.mapTokens (φ : Token → Token) (s : ReadState) : ReadState :=
  ⟨s.blocks.map (·.mapTokens φ), s.body.map (·.mapTokens φ)⟩

@[simp] theorem Statement.mapBody_eq_map (φ : Token → Token) (body : List Statement) :
    Statement.mapBody φ body = body.map (·.mapTokens φ) := by
  induction body with
  | nil => rfl
  | cons s more ih => rw [Statement.mapBody, ih, List.map_cons]

mutual

theorem Statement.mapTokens_mapTokens (φ ψ : Token → Token) :
    ∀ s : Statement, (s.mapTokens φ).mapTokens ψ = s.mapTokens (fun t => ψ (φ t))
  | .domain names body => by
    rw [mapTokens, mapTokens, mapTokens, mapBody_mapBody φ ψ body]
  | .location pattern body => by
    rw [mapTokens, mapTokens, mapTokens, mapBody_mapBody φ ψ body]
  | .call directive arguments => by
    simp [mapTokens]
  | .declare name value => by
    rw [mapTokens, mapTokens, mapTokens, Value.map_map]
  | .rule source target => rfl

theorem Statement.mapBody_mapBody (φ ψ : Token → Token) :
    ∀ body, mapBody ψ (mapBody φ body) = mapBody (fun t => ψ (φ t)) body
  | [] => rfl
  | s :: more => by
    rw [mapBody, mapBody, mapBody, mapTokens_mapTokens φ ψ s, mapBody_mapBody φ ψ more]

end

/-! ### Headers -/

namespace Header

theorem readRegex_move (t : Token) : readRegex (t.move g) = moved g id (readRegex t) := by
  unfold readRegex
  rw [Token.move_value]
  split <;> rfl

theorem readPattern_move (marker : Token) (more : List Token) :
    readPattern (marker.move g) (more.map (·.move g)) = moved g id (readPattern marker more) := by
  unfold readPattern
  rw [Token.move_value]
  split
  · cases more with
    | nil => rfl
    | cons t more => exact readRegex_move t
  · rfl

theorem read_move (tokens : List Token) (brace : Position) (parent : BlockKind) :
    read (tokens.map (·.move g)) (g brace) parent = moved g id (read tokens brace parent) := by
  match tokens with
  | [] => rfl
  | [only] => rfl
  | first :: second :: more =>
    simp only [read, List.map_cons]
    -- a location header checks its nesting before its pattern, a domain header its names first
    by_cases hl : first.kind = .keyword .location
    · rw [if_pos (show (first.move g).kind = _ from hl), if_pos hl]
      change checkNesting .location parent (g first.span.start) >>= _ = _
      rw [checkNesting_move, readPattern_move]
      refine moved_bind fun _ => ?_
      exact moved_bind fun _ => rfl
    · rw [if_neg (show (first.move g).kind ≠ _ from hl), if_neg hl, ← List.map_cons,
        nameTokens?_move]
      cases nameTokens? first (second :: more) with
      | none => rfl
      | some names =>
        change checkNesting .domain parent (g first.span.start) >>= _ = _
        rw [checkNesting_move]
        refine moved_bind fun _ => ?_
        simp only [namesOf_move]
        split <;> rfl

end Header

/-! ### Statements -/

theorem Statement.read_move (tokens : List Token) :
    Statement.read (tokens.map (·.move g)) =
      moved g (Option.map (·.mapTokens (·.move g))) (Statement.read tokens) := by
  match tokens with
  | [] => rfl
  | first :: more =>
    have hany : (first.move g :: more.map (·.move g)).any (·.value == "=>") =
        (first :: more).any (·.value == "=>") := by
      rw [← List.map_cons, List.any_map]
      rfl
    simp only [Statement.read, List.map_cons, hany]
    by_cases harrow : (first :: more).any (·.value == "=>")
    · rw [if_pos harrow, if_pos harrow]
      match more with
      | [] => rfl
      | [_] => rfl
      | [middle, target] =>
        by_cases hm : middle.value = "=>"
        · change (if (middle.move g).value = "=>" then _ else _) = moved g _ (if _ then _ else _)
          rw [if_pos (show (middle.move g).value = _ from hm), if_pos hm]
          rfl
        · change (if (middle.move g).value = "=>" then _ else _) = moved g _ (if _ then _ else _)
          rw [if_neg (show (middle.move g).value ≠ _ from hm), if_neg hm]
          rfl
      | _ :: _ :: _ :: _ =>
        simp only [List.map_cons, List.length_cons, List.length_map]
        rfl
    rw [if_neg harrow, if_neg harrow]
    -- behind `set` the number of words decides between a fault, an item and a list
    by_cases hset : first.value = Keyword.set.text
    · rw [if_pos (show (first.move g).value = _ from hset), if_pos hset]
      match more with
      | [] => rfl
      | [_] => rfl
      | [_, _] => rfl
      | _ :: _ :: _ :: _ => rfl
    · rw [if_neg (show (first.move g).value ≠ _ from hset), if_neg hset]
      rfl

/-! ### Reading states -/

namespace ReadState

theorem scope_mapTokens (s : ReadState) : (s.mapTokens φ).scope = s.scope := by
  obtain ⟨blocks, body⟩ := s
  cases blocks <;> rfl

theorem addStatement_move (s : ReadState) (tokens : List Token) :
    (s.mapTokens (·.move g)).addStatement (tokens.map (·.move g)) =
      moved g (·.mapTokens (·.move g)) (s.addStatement tokens) := by
  unfold addStatement
  rw [Statement.read_move]
  refine moved_bind fun statement => ?_
  cases statement <;> rfl

theorem close_mapTokens (b : OpenBlock) (body : List Statement) :
    (b.mapTokens φ).close (body.map (·.mapTokens φ)) =
      (b.close body).map (·.mapTokens φ) := by
  obtain ⟨header, before⟩ := b
  cases header <;>
    simp [OpenBlock.close, OpenBlock.mapTokens, Header.withBody, Statement.mapTokens]

theorem step_move (s : ReadState) (run : Run) :
    (s.mapTokens (·.move g)).step (run.move g) =
      moved g (·.mapTokens (·.move g)) (s.step run) := by
  obtain ⟨tokens, terminator⟩ := run
  simp only [step, Run.move, withoutComments_move, Token.move_kind]
  -- by the terminator: a block opens, a block closes, or a statement ends
  split
  · rw [scope_mapTokens]
    change Header.read _ (g terminator.span.start) s.scope >>= _ = _
    rw [Header.read_move]
    exact moved_bind fun _ => rfl
  · obtain ⟨blocks, body⟩ := s
    cases blocks with
    | nil => rfl
    | cons b outer =>
      change addStatement _ _ >>= _ = _
      rw [addStatement_move]
      refine moved_bind fun s => ?_
      rw [show (s.mapTokens (·.move g)).body = s.body.map (·.mapTokens (·.move g)) from rfl,
        close_mapTokens]
      rfl
  · exact addStatement_move s _

theorem foldlM_move (runs : List Run) (s : ReadState) :
    (runs.map (·.move g)).foldlM step (s.mapTokens (·.move g)) =
      moved g (·.mapTokens (·.move g)) (runs.foldlM step s) := by
  induction runs generalizing s with
  | nil => rfl
  | cons run runs ih =>
    rw [List.map_cons, List.foldlM_cons, List.foldlM_cons, step_move]
    exact moved_bind fun s => ih s

theorem foldl_close_mapTokens (blocks : List OpenBlock) (body : List Statement) :
    (blocks.map (·.mapTokens φ)).foldl (fun body b => b.close body) (body.map (·.mapTokens φ)) =
      (blocks.foldl (fun body b => b.close body) body).map (·.mapTokens φ) := by
  induction blocks generalizing body with
  | nil => rfl
  | cons b blocks ih =>
    rw [List.map_cons, List.foldl_cons, close_mapTokens, ih, List.foldl_cons]

theorem finish_move (s : ReadState) (last : List Token) :
    (s.mapTokens (·.move g)).finish (last.map (·.move g)) =
      moved g (·.mapTokens (·.move g)) (s.finish last) := by
  unfold finish
  rw [withoutComments_move, addStatement_move]
  refine moved_bind fun s => ?_
  simp only [mapTokens, foldl_close_mapTokens, ← List.map_reverse]
  rfl

end ReadState

/-! ### Whole files -/

/-- **Reading does not look at places.** -/
theorem RuleFile.ofTokens_move (g : Position → Position) (stream : TokenStream) :
    RuleFile.ofTokens (stream.move g) =
      moved g (·.mapTokens (·.move g)) (RuleFile.ofTokens stream) := by
  obtain ⟨tokens, fault⟩ := stream
  simp only [ofTokens, TokenStream.move, Runs.ofTokens_move, Runs.move]
  change List.foldlM ReadState.step (ReadState.mapTokens (·.move g) {}) _ >>= _ = _
  rw [ReadState.foldlM_move]
  refine moved_bind fun s => ?_
  cases fault with
  | none => exact ReadState.finish_move s _
  | some f => rfl

end HostRules
