/-
HostRules/Proofs/Refusals.lean

What a refusal is about.  `Blames tokens terminator f t` says that a statement with the tokens
`tokens`, comments left out, and the token `terminator` behind them can be refused with the fault
`f`, and that `f` is about the token `t`: it has one rule for each cause, and the rule tells which
token of the statement is blamed and at which of its ends.

Every refusal is one of these.  A header and a statement blame one of their tokens
(`Header.blames_of_read`, `Statement.blames_of_read`), hence so does the run that a reading state
refuses (`ReadState.blames_of_step`), and runs are refused for one of them
(`ReadState.foldlM_eq_error`).

Main result: a stream of tokens is refused for its own fault, or for one of its statements, with a
token of that statement to blame (`RuleFile.refusedFor_of_ofTokens`).
-/
import HostRules.Proofs.Parsed

namespace HostRules

/-! ### Tokens to blame -/

/-- A statement with these tokens and this terminator can be refused with the fault `f`, which is
about the token `t`. -/
inductive Blames : (tokens : List Token) → (terminator : Option Token) → (f : Fault) →
    (t : Token) → Prop
  /-- A brace without a header. -/
  | noHeader {brace : Token} {expected : Option BlockKind} :
      brace.kind = .blockStart →
        Blames [] (some brace) ⟨.unexpectedBlock expected, brace.span.start⟩ brace
  /-- A header that opens no block, blamed on its first token. -/
  | header {first brace : Token} {more : List Token} {expected : Option BlockKind} :
      brace.kind = .blockStart →
        Blames (first :: more) (some brace) ⟨.unexpectedBlock expected, first.span.start⟩ first
  /-- A header that opens a block at the wrong level, blamed on its first token. -/
  | misnested {first brace : Token} {more : List Token} {child parent : BlockKind} :
      brace.kind = .blockStart → child.depth ≠ parent.depth + 1 →
        Blames (first :: more) (some brace) ⟨.misnested child parent, first.span.start⟩ first
  /-- A `~` behind which the header ends: the pattern is missing where the `~` ends. -/
  | missingRegex {first marker brace : Token} :
      brace.kind = .blockStart → marker.value = "~" →
        Blames [first, marker] (some brace) ⟨.missingRegex, marker.span.stop⟩ marker
  /-- A pattern behind `~` that is no regular expression. -/
  | invalidRegex {first marker pattern brace : Token} {more : List Token} {reason : String} :
      brace.kind = .blockStart → marker.value = "~" →
        Blames (first :: marker :: pattern :: more) (some brace)
          ⟨.invalidRegex pattern.value reason, pattern.span.start⟩ pattern
  /-- A statement with an arrow that is no rule, blamed on its first token. -/
  | malformedRule {first : Token} {more : List Token} {terminator : Option Token} :
      (∃ arrow ∈ first :: more, arrow.value = "=>") →
        Blames (first :: more) terminator ⟨.malformedRule (more.length + 1), first.span.start⟩ first
  /-- A `set` without a name or without a value. -/
  | incompleteVariable {first : Token} {more : List Token} {terminator : Option Token} :
      first.value = Keyword.set.text → more.length ≤ 1 →
        Blames (first :: more) terminator ⟨.incompleteVariable, first.span.start⟩ first
  /-- A brace that closes no block. -/
  | unmatchedBlockEnd {tokens : List Token} {brace : Token} :
      brace.kind = .blockEnd →
        Blames tokens (some brace) ⟨.unmatchedBlockEnd, brace.span.start⟩ brace

variable {tokens : List Token} {terminator : Option Token} {t : Token} {f : Fault}

namespace Blames

/-- The token to blame is in the statement or ends it. -/
theorem mem (h : Blames tokens terminator f t) : t ∈ tokens ∨ terminator = some t := by
  cases h with
  | noHeader | unmatchedBlockEnd => exact Or.inr rfl
  | _ => exact Or.inl (by simp)

/-- What ends a statement is to blame only if it is a brace. -/
theorem kind (h : Blames tokens terminator f t) :
    t ∈ tokens ∨ t.kind = .blockStart ∨ t.kind = .blockEnd := by
  cases h with
  | noHeader hb => exact Or.inr (Or.inl hb)
  | unmatchedBlockEnd hb => exact Or.inr (Or.inr hb)
  | _ => exact Or.inl (by simp)

/-- A fault stands where the token to blame begins; only what is missing stands where it ends,
and there a brace follows. -/
theorem place (h : Blames tokens terminator f t) :
    f.cause ≠ .missingRegex ∧ f.place = t.span.start ∨
      f.cause = .missingRegex ∧ t.value = "~" ∧ f.place = t.span.stop ∧ t ∈ tokens := by
  cases h with
  | missingRegex _ htilde => exact Or.inr ⟨rfl, htilde, rfl, by simp⟩
  | _ => exact Or.inl ⟨nofun, rfl⟩

/-- Strings that their line does not close are not blamed on a statement. -/
theorem class?_ne_none (h : Blames tokens terminator f t) : f.cause.class? ≠ none := by
  cases h <;> simp [Cause.class?]

end Blames

/-- What fails in two steps fails in the first, or in the second behind it. -/
theorem error_of_bind {α β : Type} {x : Except Fault α} {k : α → Except Fault β}
    (h : x >>= k = .error f) : x = .error f ∨ ∃ a, x = .ok a ∧ k a = .error f := by
  cases x with
  | error f' =>
    cases h
    exact Or.inl rfl
  | ok a => exact Or.inr ⟨a, rfl, h⟩

/-! ### Statements among the tokens of a file -/

/-- The tokens `tokens` are those of one statement of a stream, behind `front` and before `back`:
they reach from one token that ends a statement to the next, or to the end of the stream if it
ends without a fault. -/
structure StatementAmong (stream : TokenStream) (front tokens : List Token)
    (terminator : Option Token) (back : List Token) : Prop where
  split : stream.tokens = front ++ (tokens ++ (terminator.toList ++ back))
  starts : ∀ t, front.getLast? = some t → t.kind.endsStatement = true
  inside : ∀ t ∈ tokens, t.kind.endsStatement = false
  ends : ∀ t, terminator = some t → t.kind.endsStatement = true
  last : terminator = none → back = [] ∧ stream.fault = none

namespace Runs

/-- The tokens of some runs, each with the token that ends it. -/
def flatten (runs : List Run) : List Token := runs.flatMap fun r => r.tokens ++ [r.terminator]

/-- Dividing tokens into runs loses none of them. -/
theorem flatten_ofTokens (tokens : List Token) :
    flatten (ofTokens tokens).complete ++ (ofTokens tokens).last = tokens := by
  induction tokens with
  | nil => rfl
  | cons t tokens ih =>
    rw [show ofTokens (t :: tokens) = Runs.cons t (ofTokens tokens) from rfl, Runs.cons]
    -- a token that ends a statement makes a run; any other one goes to the run behind it
    split
    · exact congrArg (t :: ·) ih
    · cases hcomplete : (ofTokens tokens).complete with
      | nil =>
        rw [hcomplete] at ih
        exact congrArg (t :: ·) ih
      | cons run more =>
        rw [hcomplete] at ih
        exact congrArg (t :: ·) ih

/-- Every run ends with a token that ends a statement. -/
theorem terminator_ofTokens (tokens : List Token) :
    ∀ run ∈ (ofTokens tokens).complete, run.terminator.kind.endsStatement = true := by
  have hnil : ∀ run ∈ ([] : List Run), run.terminator.kind.endsStatement = true :=
    fun _ hrun => absurd hrun List.not_mem_nil
  induction tokens with
  | nil => exact hnil
  | cons t tokens ih =>
    rw [show ofTokens (t :: tokens) = Runs.cons t (ofTokens tokens) from rfl, Runs.cons]
    split
    · next hends => exact List.forall_mem_cons.mpr ⟨hends, ih⟩
    · cases hcomplete : (ofTokens tokens).complete with
      | nil => exact hnil
      | cons run more =>
        rw [hcomplete] at ih
        obtain ⟨hrun, hmore⟩ := List.forall_mem_cons.mp ih
        exact List.forall_mem_cons.mpr ⟨hrun, hmore⟩

theorem getLast?_flatten {runs : List Run}
    (h : ∀ run ∈ runs, run.terminator.kind.endsStatement = true) :
    ∀ t, (flatten runs).getLast? = some t → t.kind.endsStatement = true := by
  intro t ht
  -- from the end, since only the terminator of the last run is asked about
  rcases List.eq_nil_or_concat runs with rfl | ⟨front, run, rfl⟩
  · cases ht
  · have hlast : (flatten (front ++ [run])).getLast? = some run.terminator := by
      simp [flatten]
    rw [List.concat_eq_append, hlast] at ht
    obtain rfl := Option.some.inj ht
    exact h run (by simp)

variable {stream : TokenStream}

/-- A complete run is a statement of its stream. -/
theorem statementAmong {before after : List Run} {run : Run}
    (h : (ofTokens stream.tokens).complete = before ++ run :: after) :
    StatementAmong stream (flatten before) run.tokens (some run.terminator)
      (flatten after ++ (ofTokens stream.tokens).last) where
  split := by
    have hflat := (flatten_ofTokens stream.tokens).symm
    rw [h] at hflat
    simpa [flatten] using hflat
  starts := by
    apply getLast?_flatten
    intro run' hrun'
    exact terminator_ofTokens stream.tokens run' (by rw [h]; exact List.mem_append_left _ hrun')
  inside := by
    have hinner : ∀ run ∈ (ofTokens stream.tokens).complete,
        ∀ t ∈ run.tokens, t.kind.endsStatement = false := (forall_ofTokens fun t _ ht => ht).1
    exact hinner run (by simp [h])
  ends := by
    intro t ht
    obtain rfl := Option.some.inj ht
    exact terminator_ofTokens stream.tokens run (by simp [h])
  last := nofun

/-- The tokens behind the last complete run are the last statement. -/
theorem statementAmong_last (h : stream.fault = none) :
    StatementAmong stream (flatten (ofTokens stream.tokens).complete)
      (ofTokens stream.tokens).last none [] where
  split := by
    rw [Option.toList_none, List.append_nil, List.append_nil, flatten_ofTokens]
  starts := getLast?_flatten (terminator_ofTokens stream.tokens)
  inside := (forall_ofTokens fun t _ ht => ht).2
  ends := nofun
  last := fun _ => ⟨rfl, h⟩

end Runs

/-- The fault `f` is about the token `t` of one of the statements of a stream. -/
def RefusedFor (stream : TokenStream) (f : Fault) (t : Token) : Prop :=
  ∃ front tokens terminator back, StatementAmong stream front tokens terminator back ∧
    Blames (withoutComments tokens) terminator f t

/-- The token to blame is one of the stream. -/
theorem RefusedFor.mem {stream : TokenStream} (h : RefusedFor stream f t) :
    t ∈ stream.tokens := by
  obtain ⟨front, tokens, terminator, back, hamong, hblames⟩ := h
  rw [hamong.split]
  rcases hblames.mem with hinside | rfl
  · have htokens : t ∈ tokens := (List.mem_filter.mp hinside).1
    simp [htokens]
  · simp

theorem RefusedFor.class?_ne_none {stream : TokenStream} (h : RefusedFor stream f t) :
    f.cause.class? ≠ none := by
  obtain ⟨_, _, _, _, -, hblames⟩ := h
  exact hblames.class?_ne_none

/-- A fault stands at one end of the token to blame. -/
theorem RefusedFor.place {stream : TokenStream} (h : RefusedFor stream f t) :
    f.cause ≠ .missingRegex ∧ f.place = t.span.start ∨
      f.cause = .missingRegex ∧ t.value = "~" ∧ f.place = t.span.stop := by
  obtain ⟨_, _, _, _, -, hblames⟩ := h
  exact hblames.place.imp_right fun ⟨hcause, htilde, hstop, _⟩ => ⟨hcause, htilde, hstop⟩

/-- No line break is to blame. -/
theorem RefusedFor.kind_ne {stream : TokenStream} (h : RefusedFor stream f t) :
    t.kind ≠ .lineBreak := by
  obtain ⟨front, tokens, terminator, back, hamong, hblames⟩ := h
  intro hbreak
  -- a line break ends statements, so it stands in none of them, and it is no brace
  rcases hblames.kind with hinside | hbrace | hbrace
  · have hends := hamong.inside t (List.mem_filter.mp hinside).1
    rw [hbreak] at hends
    cases hends
  · rw [hbreak] at hbrace
    cases hbrace
  · rw [hbreak] at hbrace
    cases hbrace

variable [Regex.Dialect]

/-! ### Headers -/

namespace Header

variable {parent : BlockKind} {first marker brace : Token} {more : List Token}

omit [Regex.Dialect] in
theorem blames_of_checkNesting {child : BlockKind} (hb : brace.kind = .blockStart)
    (h : checkNesting child parent first.span.start = .error f) :
    Blames (first :: more) (some brace) f first := by
  unfold checkNesting at h
  split at h
  · cases h
  · next hdepth =>
    cases h
    exact .misnested hb hdepth

theorem blames_of_readPattern (hb : brace.kind = .blockStart)
    (h : readPattern marker more = .error f) :
    ∃ t, Blames (first :: marker :: more) (some brace) f t := by
  -- only a marker `~` asks for a pattern, which is missing or does not compile
  unfold readPattern at h
  split at h
  · next htilde =>
    split at h
    · cases h
      exact ⟨marker, .missingRegex hb htilde⟩
    · next pattern more =>
      unfold readRegex at h
      split at h
      · cases h
      · cases h
        exact ⟨pattern, .invalidRegex hb htilde⟩
  · cases h

/-- A header that is refused has a token to blame. -/
theorem blames_of_read (hb : brace.kind = .blockStart)
    (h : read tokens brace.span.start parent = .error f) :
    ∃ t, Blames tokens (some brace) f t := by
  unfold read at h
  split at h
  · cases h
    exact ⟨brace, .noHeader hb⟩
  · next only =>
    cases h
    exact ⟨only, .header hb⟩
  · next first second more =>
    dsimp only at h
    split at h
    · -- a location: its nesting, then its pattern
      rcases error_of_bind h with hcheck | ⟨_, -, hrest⟩
      · exact ⟨first, blames_of_checkNesting hb hcheck⟩
      · rcases error_of_bind hrest with hpattern | ⟨pattern, -, hok⟩
        · exact blames_of_readPattern hb hpattern
        · cases hok
    · split at h
      · cases h
        exact ⟨first, .header hb⟩
      · -- a domain: its nesting, then its names
        rcases error_of_bind h with hcheck | ⟨_, -, hrest⟩
        · exact ⟨first, blames_of_checkNesting hb hcheck⟩
        · split at hrest
          · cases hrest
            exact ⟨first, .header hb⟩
          · cases hrest

end Header

/-! ### Statements -/

/-- A statement that is refused has a token to blame, whatever ends it. -/
theorem Statement.blames_of_read (h : Statement.read tokens = .error f)
    (terminator : Option Token) : ∃ t, Blames tokens terminator f t := by
  unfold Statement.read at h
  split at h
  · cases h
  · next first more =>
    dsimp only at h
    split at h
    · next harrow =>
      -- behind the arrow test a statement is a rule, and then it is refused for its form only
      have hmem : ∃ arrow ∈ first :: more, arrow.value = "=>" := by
        obtain ⟨arrow, harrow, hvalue⟩ := List.any_eq_true.mp harrow
        exact ⟨arrow, harrow, eq_of_beq hvalue⟩
      split at h
      · split at h
        · cases h
        · cases h
          exact ⟨first, .malformedRule hmem⟩
      · cases h
        exact ⟨first, .malformedRule hmem⟩
    · split at h
      · next hset =>
        split at h
        · cases h
          exact ⟨first, .incompleteVariable hset (Nat.zero_le 1)⟩
        · cases h
          exact ⟨first, .incompleteVariable hset (Nat.le_refl 1)⟩
        · cases h
        · cases h
      · cases h

/-! ### Reading states -/

namespace ReadState

variable {s : ReadState}

theorem addStatement_eq_error (h : s.addStatement tokens = .error f) :
    Statement.read tokens = .error f := by
  rcases error_of_bind h with hread | ⟨st, -, hok⟩
  · exact hread
  · cases hok

/-- A run that is refused has a token to blame. -/
theorem blames_of_step {run : Run} (h : s.step run = .error f) :
    ∃ t, Blames (withoutComments run.tokens) (some run.terminator) f t := by
  -- a step refuses the header, the brace itself, or the statement in front of a brace or separator
  unfold step at h
  cases hkind : run.terminator.kind with
  | blockStart =>
    simp only [hkind] at h
    rcases error_of_bind h with hread | ⟨header, -, hok⟩
    · exact Header.blames_of_read hkind hread
    · cases hok
  | blockEnd =>
    simp only [hkind] at h
    split at h
    · cases h
      exact ⟨run.terminator, .unmatchedBlockEnd hkind⟩
    · rcases error_of_bind h with hadd | ⟨s', -, hok⟩
      · exact Statement.blames_of_read (addStatement_eq_error hadd) _
      · cases hok
  | _ =>
    simp only [hkind] at h
    exact Statement.blames_of_read (addStatement_eq_error h) _

theorem blames_of_finish {last : List Token} (h : s.finish last = .error f) :
    ∃ t, Blames (withoutComments last) none f t := by
  rcases error_of_bind h with hadd | ⟨s', -, hok⟩
  · exact Statement.blames_of_read (addStatement_eq_error hadd) none
  · cases hok

/-- Runs are refused for one of them, behind runs that are in order. -/
theorem foldlM_eq_error {runs : List Run} (h : runs.foldlM step s = .error f) :
    ∃ before run after s', runs = before ++ run :: after ∧ before.foldlM step s = .ok s' ∧
      s'.step run = .error f := by
  -- along the runs, from the state that those before have led to
  induction runs generalizing s with
  | nil => cases h
  | cons run runs ih =>
    rw [List.foldlM_cons] at h
    rcases error_of_bind h with hstep | ⟨s₁, hstep, hrest⟩
    · exact ⟨[], run, runs, s, rfl, rfl, hstep⟩
    · obtain ⟨before, run', after, s', rfl, hbefore, hrun⟩ := ih hrest
      refine ⟨run :: before, run', after, s', rfl, ?_, hrun⟩
      rw [List.foldlM_cons, hstep]
      exact hbefore

end ReadState

/-! ### Whole files -/

/-- **Every refusal has something to blame.**  A stream of tokens is refused for its own fault, or
for one of its statements and a token of it. -/
theorem RuleFile.refusedFor_of_ofTokens {stream : TokenStream} (h : ofTokens stream = .error f) :
    stream.fault = some f ∨ ∃ t, RefusedFor stream f t := by
  rcases error_of_bind h with hfold | ⟨s, -, hrest⟩
  · -- a complete run is refused; what stands behind it was not looked at
    obtain ⟨before, run, after, s', hruns, -, hstep⟩ := ReadState.foldlM_eq_error hfold
    obtain ⟨t, ht⟩ := ReadState.blames_of_step hstep
    exact Or.inr ⟨t, _, _, _, _, Runs.statementAmong hruns, ht⟩
  · -- all complete runs are read: now a fault of the tokens comes before their last statement
    cases hfault : stream.fault with
    | some e =>
      rw [hfault] at hrest
      cases hrest
      exact Or.inl rfl
    | none =>
      rw [hfault] at hrest
      obtain ⟨t, ht⟩ := ReadState.blames_of_finish hrest
      exact Or.inr ⟨t, _, _, _, _, Runs.statementAmong_last hfault, ht⟩

end HostRules
