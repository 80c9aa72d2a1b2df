/-
HostRules/Proofs/Progress.lean

Reading comes to an end.  Every token or fault that is read from a text leads to a place further on,
and when only spaces are left the end is found, now and ever after; so there are no more of them
than the text has bytes.  A rule file is read by asking for one token after the other; it asks for
each of them once, and for the end, and meanwhile at most one block of each kind is open.

Design.  `Cursor.pass` goes on behind the next token or fault, past faults too, and `Reading.next`
reads a file one token further: `Cursor.pass^[m]` and `Reading.next^[m]` are what has come about
after `m` of them.  The file that a reading comes to is known all the time, and one token more does
not change it (`Reading.At.next`).  The kinds of the bodies being read grow only by a header that
stands one level further in (`ReadState.scopes_step`).

Main result: `reading_ends`.
-/
import Mathlib.Logic.Function.Iterate
import HostRules.Proofs.Pulling

namespace HostRules

variable {mark body : List Char} {k : Nat} {c : Cursor} {source : String}

/-! ### Tokens and faults one after the other -/

/-- Whether a step finds the end. -/
def Step.isEnd : Step → Bool
  | .finished _ => true
  | .token _ _ | .fault _ _ => false

namespace Cursor

/-- The cursor behind the next token or fault, or at the end. -/
def pass (c : Cursor) : Cursor := c.step.after

/-- The end is found when only spaces are left, and only then. -/
theorem isEnd_step_iff (c : Cursor) : c.step.isEnd = true ↔ OnlyGaps c.rest := by
  constructor
  · intro h
    have hd := c.step_describes
    cases hstep : c.step with
    | finished after =>
      rw [hstep] at hd
      exact hd
    | token t after =>
      rw [hstep] at h
      cases h
    | fault f after =>
      rw [hstep] at h
      cases h
  · intro h
    obtain ⟨after, hstep⟩ := step_of_onlyGaps (p := c.position) h
    show (step ⟨c.position, c.rest⟩).isEnd = true
    rw [hstep]
    rfl

/-- Behind the end is the end. -/
theorem isEnd_pass (h : c.step.isEnd = true) : c.pass.step.isEnd = true := by
  cases hstep : c.step with
  | finished after =>
    have hrest : c.pass.rest = [] := by
      rw [pass, hstep]
      exact rest_of_finished hstep
    rw [isEnd_step_iff, hrest]
    exact List.forall_mem_nil _
  | token t after =>
    rw [hstep] at h
    cases h
  | fault f after =>
    rw [hstep] at h
    cases h

theorem isEnd_passes (h : c.step.isEnd = true) (m : Nat) : (pass^[m] c).step.isEnd = true := by
  induction m with
  | zero => exact h
  | succ m ih =>
    rw [Function.iterate_succ_apply']
    exact isEnd_pass ih

theorem pass_shorter (h : c.step.isEnd = false) : c.pass.rest.length < c.rest.length := by
  refine step_shorter fun after hstep => ?_
  rw [hstep] at h
  cases h

/-- The steps of a text are those of its tokens and faults and the one that finds the end; from
there on every step does. -/
def EndsAfter (c : Cursor) (n : Nat) : Prop :=
  c.steps = (List.range (n + 1)).map (fun m => (pass^[m] c).step) ∧
    ∀ m, (pass^[m] c).step.isEnd = true ↔ n ≤ m

theorem endsAfter_zero {after : Cursor} (h : c.step = .finished after) : c.EndsAfter 0 := by
  constructor
  · rw [steps_of_finished h, ← h]
    rfl
  · have hend : c.step.isEnd = true := by
      rw [h]
      rfl
    exact fun m => iff_of_true (isEnd_passes hend m) (Nat.zero_le m)

theorem EndsAfter.succ {n : Nat} (h : c.pass.EndsAfter n)
    (hsteps : c.steps = c.step :: c.pass.steps) (hend : c.step.isEnd = false) :
    c.EndsAfter (n + 1) := by
  constructor
  · rw [hsteps, h.1, List.range_succ_eq_map (n := n + 1), List.map_cons, List.map_map]
    rfl
  · intro m
    cases m with
    | zero =>
      refine iff_of_false ?_ (Nat.not_succ_le_zero n)
      show ¬ c.step.isEnd = true
      rw [hend]
      nofun
    | succ m =>
      rw [Function.iterate_succ_apply, h.2 m, Nat.add_le_add_iff_right]

/-- Reading on, past faults too, finds the end. -/
theorem exists_endsAfter (c : Cursor) : ∃ n, c.EndsAfter n := by
  -- along the steps of the lexer, which go on behind a fault
  induction c using steps.induct with
  | case1 c after h => exact ⟨0, endsAfter_zero h⟩
  | case2 c t after h ih =>
    have hpass : c.pass = after := by rw [pass, h]; rfl
    rw [← hpass] at ih
    obtain ⟨n, hn⟩ := ih
    refine ⟨n + 1, hn.succ ?_ (by rw [h]; rfl)⟩
    rw [steps_of_token h, hpass, h]
  | case3 c f after h ih =>
    have hpass : c.pass = after := by rw [pass, h]; rfl
    rw [← hpass] at ih
    obtain ⟨n, hn⟩ := ih
    refine ⟨n + 1, hn.succ ?_ (by rw [h]; rfl)⟩
    rw [steps_of_fault h, hpass, h]

namespace StandsAt

theorem passes (h : c.StandsAt mark body k) (m : Nat) :
    ∃ k', (Cursor.pass^[m] c).StandsAt mark body k' := by
  induction m with
  | zero => exact ⟨k, h⟩
  | succ m ih =>
    obtain ⟨k₁, h₁⟩ := ih
    obtain ⟨k₂, -, h₂⟩ := h₁.perform .token
    rw [Function.iterate_succ_apply']
    exact ⟨k₂, h₂⟩

/-- A token or a fault leads to a place with more bytes before it. -/
theorem index_lt_pass (h : c.StandsAt mark body k) (hend : c.step.isEnd = false) :
    c.position.index < c.pass.position.index := by
  obtain ⟨k', -, h' : c.pass.StandsAt mark body k'⟩ := h.perform .token
  have hshorter := pass_shorter hend
  rw [h.rest, h'.rest, List.length_drop, List.length_drop] at hshorter
  -- less is left behind the step, so it ends at a later character
  have hless : k < k' := by omega
  rw [h.position, h'.position]
  exact (Position.nth_increases mark h'.le hless).2

theorem index_le (h : c.StandsAt mark body k) (hsource : source.toList = mark ++ body) :
    c.position.index ≤ source.utf8ByteSize :=
  (h.exactAt hsource).boundary.le_rawEndPos

end StandsAt

end Cursor

/-- Where each of the first `n` steps leads further on, the place behind them has `n` bytes before
it. -/
theorem Cursor.le_index {n : Nat}
    (h : ∀ m < n, (pass^[m] c).position.index < (pass^[m + 1] c).position.index) :
    n ≤ (pass^[n] c).position.index := by
  induction n with
  | zero => exact Nat.zero_le _
  | succ n ih =>
    have hle := ih fun m hm => h m (Nat.lt_succ_of_lt hm)
    have hless := h n (Nat.lt_succ_self n)
    omega

variable [Regex.Dialect]

/-! ### The bodies being read -/

namespace ReadState

variable {s s' : ReadState}

/-- The kinds of the bodies being read, the innermost first: those of the open blocks, and that of
the file itself. -/
def scopes (s : ReadState) : List BlockKind := s.blocks.map (·.header.kind) ++ [.global]

/-- The bodies being read are at most one of each kind, one inside the other. -/
def Nested (s : ReadState) : Prop := s.scopes <:+ [.location, .domain, .global]

theorem scopes_eq (s : ReadState) : ∃ around, s.scopes = s.scope :: around := by
  obtain ⟨blocks, body⟩ := s
  cases blocks with
  | nil => exact ⟨[], rfl⟩
  | cons b outer => exact ⟨scopes ⟨outer, b.before⟩, rfl⟩

theorem Nested.openBlock (h : s.Nested) {header : Header}
    (hdepth : header.kind.depth = s.scope.depth + 1) : (s.openBlock header).Nested := by
  have hchild : s.scope.child? = some header.kind := BlockKind.child?_eq_some_iff_depth.mpr hdepth
  obtain ⟨around, hscopes⟩ := s.scopes_eq
  have hcases : s.scopes = [.location, .domain, .global] ∨ s.scopes = [.domain, .global] ∨
      s.scopes = [.global] := by
    simpa [Nested, List.suffix_cons_iff, hscopes] using h
  show header.kind :: s.scopes <:+ [.location, .domain, .global]
  -- the kinds around are the last of the three, so the innermost tells how many they are
  rcases hcases with hs | hs | hs
  · rw [hscopes] at hs
    rw [(List.cons.inj hs).1] at hchild
    cases hchild
  · rw [hs] at hscopes ⊢
    rw [← (List.cons.inj hscopes).1] at hchild
    simp only [← Option.some.inj hchild, List.suffix_rfl]
  · rw [hs] at hscopes ⊢
    rw [← (List.cons.inj hscopes).1] at hchild
    simp only [← Option.some.inj hchild, List.suffix_cons]

/-- A run opens a block one level further in, closes one, or leaves the blocks as they are. -/
theorem Nested.step (h : s.Nested) {run : Run} (hstep : s.step run = .ok s') : s'.Nested := by
  have hdoes := step_eq_ok hstep
  cases hkind : run.terminator.kind with
  | blockStart =>
    simp only [hkind] at hdoes
    obtain ⟨header, hread, rfl⟩ := hdoes
    obtain ⟨-, -, -, -, hdepth, -⟩ := Header.read_eq_ok hread
    exact h.openBlock hdepth
  | blockEnd =>
    simp only [hkind] at hdoes
    obtain ⟨b, outer, st, hblocks, -, rfl⟩ := hdoes
    have hscopes : s.scopes = b.header.kind :: scopes ⟨outer, b.close (st.toList ++ s.body)⟩ := by
      rw [scopes, hblocks]
      rfl
    unfold Nested at h
    rw [hscopes] at h
    exact (List.suffix_cons _ _).trans h
  | _ =>
    simp only [hkind] at hdoes
    obtain ⟨st, -, rfl⟩ := hdoes
    exact h

end ReadState

/-! ### Reading one token at a time -/

/-- A rule file that is being read from a text: what has been read of it, the tokens of the
statement at hand, and the cursor behind them; or what the reading has come to. -/
inductive Reading where
  | underway (s : ReadState) (tokens : List Token) (c : Cursor)
  | finished (result : Except Fault RuleFile)

namespace Reading

/-- Before the first token of a text. -/
def start (source : String) : Reading := underway {} [] (.ofText source)

/-- Asks for one token more.  The token that ends a statement has the statement read; the end of the
text has the last one read, and the first fault ends everything. -/
def next : Reading → Reading
  | finished result => finished result
  | underway s tokens c =>
    match c.step with
    | .finished _ => finished (s.finish tokens)
    | .fault f _ => finished (.error f)
    | .token t after =>
      if t.kind.endsStatement then
        match s.step ⟨tokens, t⟩ with
        | .error f => finished (.error f)
        | .ok s' => underway s' [] after
      else underway s (tokens ++ [t]) after

/-- A reading after `m` tokens: it has passed these and no others, the bodies being read are at most
one of each kind, and it comes to what the whole text is read as. -/
inductive At (source : String) (m : Nat) : Reading → Prop
  | underway {s : ReadState} {tokens : List Token} {c : Cursor} :
      c = Cursor.pass^[m] (.ofText source) → s.Nested →
        (∀ t ∈ tokens, t.kind.endsStatement = false) →
        s.readRest (.behind tokens (.ofSteps c.steps)) = RuleFile.parse source →
        At source m (underway s tokens c)
  | finished {result : Except Fault RuleFile} :
      result = RuleFile.parse source → At source m (finished result)

variable {r : Reading} {m : Nat} {s : ReadState} {tokens : List Token} {after : Cursor} {t : Token}
variable {f : Fault}

theorem next_of_finished (h : c.step = .finished after) :
    (underway s tokens c).next = finished (s.finish tokens) := by
  rw [next, h]

theorem next_of_fault (h : c.step = .fault f after) :
    (underway s tokens c).next = finished (.error f) := by
  rw [next, h]

theorem next_of_token (h : c.step = .token t after) (ht : t.kind.endsStatement = false) :
    (underway s tokens c).next = underway s (tokens ++ [t]) after := by
  simp only [next, h, ht, Bool.false_eq_true, if_false]

theorem next_of_terminator (h : c.step = .token t after) (ht : t.kind.endsStatement = true) :
    (underway s tokens c).next =
      match s.step ⟨tokens, t⟩ with
      | .error f => finished (.error f)
      | .ok s' => underway s' [] after := by
  simp only [next, h, ht, if_true]

theorem At.start (source : String) : (start source).At source 0 :=
  .underway rfl ⟨[.location, .domain], rfl⟩ (List.forall_mem_nil _) rfl

/-- One token more. -/
theorem At.next (h : r.At source m) : r.next.At source (m + 1) := by
  cases h with
  | finished hresult => exact .finished hresult
  | @underway s tokens c hc hnested hunended hrest =>
    have hpass : c.pass = Cursor.pass^[m + 1] (.ofText source) := by
      rw [Function.iterate_succ_apply', hc]
    rw [Cursor.pass] at hpass
    -- what the rest is read as stays: it is told by the end, by a fault, or by one token more
    cases hstep : c.step with
    | finished after =>
      rw [Cursor.steps_of_finished hstep] at hrest
      rw [next_of_finished hstep]
      refine .finished (Eq.trans ?_ hrest)
      show _ = s.readRest ⟨tokens ++ [], none⟩
      rw [List.append_nil, ReadState.readRest_last hunended]
    | fault f after =>
      rw [Cursor.steps_of_fault hstep] at hrest
      rw [next_of_fault hstep]
      refine .finished (Eq.trans ?_ hrest)
      show _ = s.readRest ⟨tokens ++ [], some f⟩
      rw [List.append_nil, ReadState.readRest_broken hunended]
    | token t after =>
      rw [hstep] at hpass
      rw [Cursor.steps_of_token hstep] at hrest
      have hrest' : s.readRest ⟨tokens ++ t :: (TokenStream.ofSteps after.steps).tokens,
          (TokenStream.ofSteps after.steps).fault⟩ = RuleFile.parse source := hrest
      cases ht : t.kind.endsStatement with
      | true =>
        -- the statement is complete, and is read from the tokens at hand
        rw [ReadState.readRest_run hunended ht] at hrest'
        rw [next_of_terminator hstep ht]
        cases hrun : s.step ⟨tokens, t⟩ with
        | error f =>
          rw [hrun] at hrest'
          exact .finished hrest'
        | ok s' =>
          rw [hrun] at hrest'
          exact .underway hpass (hnested.step hrun) (List.forall_mem_nil _) hrest'
      | false =>
        rw [next_of_token hstep ht]
        refine .underway hpass hnested ?_ ?_
        · exact List.forall_mem_append.mpr ⟨hunended, List.forall_mem_singleton.mpr ht⟩
        · rw [← hrest', TokenStream.behind, List.append_assoc]
          rfl

/-- After any number of tokens. -/
theorem at_iterate (source : String) (m : Nat) :
    (Reading.next^[m] (.start source)).At source m := by
  induction m with
  | zero => exact .start source
  | succ m ih =>
    rw [Function.iterate_succ_apply']
    exact ih.next

theorem At.eq_parse {result : Except Fault RuleFile} (h : (Reading.finished result).At source m) :
    result = RuleFile.parse source := by
  cases h
  assumption

/-- A reading that asks for a token where none is left comes to its end. -/
theorem At.next_of_isEnd (h : r.At source m)
    (hend : (Cursor.pass^[m] (.ofText source)).step.isEnd = true) :
    r.next = .finished (RuleFile.parse source) := by
  have hnext := h.next
  cases h with
  | finished hresult => rw [← hresult, Reading.next]
  | @underway s tokens c hc _ _ _ =>
    rw [← hc] at hend
    cases hstep : c.step with
    | finished after =>
      rw [next_of_finished hstep] at hnext ⊢
      rw [hnext.eq_parse]
    | token t after =>
      rw [hstep] at hend
      cases hend
    | fault f after =>
      rw [hstep] at hend
      cases hend

/-- What has come to its end stays there. -/
theorem next_iterate_finished (result : Except Fault RuleFile) (m : Nat) :
    Reading.next^[m] (.finished result) = .finished result := by
  induction m with
  | zero => rfl
  | succ m ih => rw [Function.iterate_succ_apply, next, ih]

/-- Behind the last token a reading is over. -/
theorem iterate_of_lt {n : Nat} (h : (Cursor.ofText source).EndsAfter n) (hm : n < m) :
    Reading.next^[m] (.start source) = .finished (RuleFile.parse source) := by
  obtain ⟨d, rfl⟩ := Nat.exists_eq_add_of_lt hm
  have hend : (Cursor.pass^[n] (.ofText source)).step.isEnd = true := (h.2 n).mpr (Nat.le_refl n)
  -- the end is found after `n` tokens, the next request ends the reading, and then nothing changes
  have hlast : Reading.next^[n + 1] (.start source) = .finished (RuleFile.parse source) := by
    rw [Function.iterate_succ_apply']
    exact (at_iterate source n).next_of_isEnd hend
  rw [Nat.add_right_comm, Nat.add_comm, Function.iterate_add_apply, hlast, next_iterate_finished]

end Reading

/-! ### Whole texts -/

/-- The cursor of a text, behind the first `m` tokens and faults. -/
def Cursor.passed (source : String) (m : Nat) : Cursor := pass^[m] (.ofText source)

/-- The reading of a text that has asked for `m` tokens. -/
def Reading.advanced (source : String) (m : Nat) : Reading := next^[m] (.start source)

/-- **Reading comes to an end.**  Let `Cursor.passed source m` stand where the tokens of `source`
have been asked for `m` times, past faults too, and let `Reading.advanced source m` be the rule file
read from them by then.  The cursor stands at a character of the text.  It finds the end exactly
when only spaces are left, and otherwise goes on to a place with more bytes before it, never past
the last one.  There is a number `n` of tokens and faults, no more than the text has bytes, from
which on the end is found each time; these and the end are all steps of the text.  The reading asks
for them one by one; as long as it is underway the bodies being read are of the kinds global, domain
and location at most, each inside the one before; and when the end has been found it is over, with
what the text is read as. -/
theorem reading_ends (source : String) :
    ∃ mark body, source.toList = mark ++ body ∧
      (mark = [byteOrderMark] ∨ mark = [] ∧ source.toList.head? ≠ some byteOrderMark) ∧
      (∀ m, ∃ k, (Cursor.passed source m).StandsAt mark body k ∧
        (Cursor.passed source m).position.index ≤ source.utf8ByteSize ∧
        ((Cursor.passed source m).step.isEnd = true ↔ OnlyGaps (body.drop k)) ∧
        ((Cursor.passed source m).step.isEnd = false →
          (Cursor.passed source m).position.index <
            (Cursor.passed source (m + 1)).position.index)) ∧
      ∃ n ≤ source.utf8ByteSize,
        (∀ m, (Cursor.passed source m).step.isEnd = true ↔ n ≤ m) ∧
        (Cursor.ofText source).steps =
          (List.range (n + 1)).map (fun m => (Cursor.passed source m).step) ∧
        (∀ m s tokens c, Reading.advanced source m = .underway s tokens c →
          c = Cursor.passed source m ∧ s.scopes <:+ [.location, .domain, .global]) ∧
        (∀ m result, Reading.advanced source m = .finished result →
          result = RuleFile.parse source) ∧
        ∀ m, n < m → Reading.advanced source m = .finished (RuleFile.parse source) := by
  obtain ⟨mark, body, hsource, hmark, hstart⟩ := Cursor.standsAt_ofText source
  have hadvances : ∀ m, (Cursor.passed source m).step.isEnd = false →
      (Cursor.passed source m).position.index <
        (Cursor.passed source (m + 1)).position.index := by
    intro m hend
    obtain ⟨k, hstands⟩ := hstart.passes m
    show _ < (Cursor.pass^[m + 1] (.ofText source)).position.index
    rw [Function.iterate_succ_apply']
    exact hstands.index_lt_pass hend
  have hat : ∀ m, (Reading.advanced source m).At source m := Reading.at_iterate source
  obtain ⟨n, hends⟩ := (Cursor.ofText source).exists_endsAfter
  refine ⟨mark, body, hsource, hmark, ?_, n, ?_, hends.2, hends.1, ?_, ?_, ?_⟩
  · intro m
    obtain ⟨k, hstands⟩ := hstart.passes m
    refine ⟨k, hstands, hstands.index_le hsource, ?_, hadvances m⟩
    rw [← hstands.rest]
    exact Cursor.isEnd_step_iff _
  · obtain ⟨k, hstands⟩ := hstart.passes n
    refine Nat.le_trans (Cursor.le_index fun m hm => hadvances m ?_) (hstands.index_le hsource)
    -- each token and fault takes a byte at least, and there are as many bytes as the text has
    have hnot : ¬ (Cursor.passed source m).step.isEnd = true := fun hend =>
      absurd ((hends.2 m).mp hend) (Nat.not_le_of_lt hm)
    simpa using hnot
  · intro m s tokens c hunderway
    have hm := hat m
    rw [hunderway] at hm
    cases hm with
    | underway hc hnested _ _ => exact ⟨hc, hnested⟩
  · intro m result hfinished
    have hm := hat m
    rw [hfinished] at hm
    exact hm.eq_parse
  · exact fun m hm => Reading.iterate_of_lt hends hm

end HostRules
