/-
HostRules/Proofs/Coordinates.lean

Places are exact.  `Position.nth mark body k` is the place of the character `k` of a text, counted
behind the byte order mark: its byte offset is the bytes before it, its line is one more than the
line breaks before it, its column one more than the characters since the last of them.  The place
is said by the text and the number alone; a cursor counts its way there.

Design.  One character takes the place of `k` to that of `k + 1` (`Position.nth_succ`), so walking
over a piece of text takes the place of its first character to the place behind its last one
(`Position.advance_nth`).  All that moves a cursor walks: hence a cursor stands at a character
whatever is asked of it (`Cursor.StandsAt.performAll`), and so do the tokens and faults that are
read from it (`Cursor.StandsAt.ofSteps`).  Bytes in front of a text are carried along by every step
(`Cursor.step_shift`).

Main result: `positions_exact`.
-/
import HostRules.Proofs.Refusals
import HostRules.Regex.Standard

namespace HostRules

variable {mark body text : List Char} {i j k : Nat}

/-! ### The place of a character -/

/-- The character `i` of a text breaks the line: it is an LF, or a CR that no LF follows. -/
def BreakAt (text : List Char) (i : Nat) : Prop :=
  text[i]? = some '\n' ∨ text[i]? = some '\r' ∧ text[i + 1]? ≠ some '\n'

instance (text : List Char) (i : Nat) : Decidable (BreakAt text i) :=
  inferInstanceAs (Decidable (_ ∨ _ ∧ _))

/-- How many of the first `k` characters of a text break the line. -/
def breaksBefore (text : List Char) (k : Nat) : Nat := (List.range k).countP (BreakAt text ·)

/-- How many of the first `k` characters of a text stand behind the last of them that breaks the
line. -/
def sinceBreak (text : List Char) (k : Nat) : Nat :=
  ((List.range k).reverse.takeWhile (¬ BreakAt text ·)).length

/-- The place of the character `k` of the text `body` behind `mark`, or of its end. -/
def Position.nth (mark body : List Char) (k : Nat) : Position :=
  ⟨1 + breaksBefore body k, 1 + sinceBreak body k,
    (String.ofList (mark ++ body.take k)).utf8ByteSize⟩

/-- The place `p` comes before the place `q` in the order of lines and columns. -/
def Position.Before (p q : Position) : Prop :=
  p.line < q.line ∨ p.line = q.line ∧ p.column < q.column

theorem breaksBefore_succ (text : List Char) (k : Nat) :
    breaksBefore text (k + 1) = breaksBefore text k + if BreakAt text k then 1 else 0 := by
  simp [breaksBefore, List.range_succ, List.countP_append]

theorem sinceBreak_succ (text : List Char) (k : Nat) :
    sinceBreak text (k + 1) = if BreakAt text k then 0 else sinceBreak text k + 1 := by
  unfold sinceBreak
  rw [List.range_succ, List.reverse_append, List.reverse_singleton, List.singleton_append]
  by_cases h : BreakAt text k <;> simp [h]

theorem breaksLine_iff {c : Char} (h : text[k]? = some c) :
    breaksLine c text[k + 1]? = true ↔ BreakAt text k := by
  simp [breaksLine, BreakAt, h]

namespace Position

variable {p q r : Position} {c : Char}

@[simp] theorem nth_zero (mark body : List Char) :
    nth mark body 0 = ⟨1, 1, (String.ofList mark).utf8ByteSize⟩ := by
  simp [nth, breaksBefore, sinceBreak]

/-- A character takes its own place to that of the next one. -/
theorem nth_succ (mark : List Char) (h : body[k]? = some c) :
    nth mark body (k + 1) = (nth mark body k).step c body[k + 1]? := by
  have hindex : (String.ofList (mark ++ body.take (k + 1))).utf8ByteSize =
      (String.ofList (mark ++ body.take k)).utf8ByteSize + c.utf8Size := by
    rw [List.take_add_one, h, Option.toList_some, ← List.append_assoc, String.ofList_append,
      String.utf8ByteSize_append, ← String.singleton_eq_ofList, String.utf8ByteSize_singleton]
  unfold step nth
  rw [hindex, breaksBefore_succ, sinceBreak_succ]
  -- the line grows at a character that breaks it, the column at every other one
  by_cases hb : BreakAt body k
  · rw [if_pos ((breaksLine_iff h).mpr hb), if_pos hb, if_pos hb, Nat.add_assoc]
  · rw [if_neg (fun hl => hb ((breaksLine_iff h).mp hl)), if_neg hb, if_neg hb, Nat.add_assoc]
    rfl

/-- Walking over a piece of text leads from the place of its first character to the place behind
its last one. -/
theorem advance_nth {taken rest : List Char} (h : body.drop k = taken ++ rest) :
    (nth mark body k).advance taken rest = nth mark body (k + taken.length) := by
  induction taken generalizing k with
  | nil => rfl
  | cons c cs ih =>
    have hc : body[k]? = some c := by
      rw [← List.head?_drop, h]
      rfl
    have hdrop : body.drop (k + 1) = cs ++ rest := by
      rw [← List.tail_drop, h]
      rfl
    -- whether `c` breaks the line shows at the character behind it, which may stand behind all
    -- that is walked over
    have hnext : cs.head?.or rest.head? = body[k + 1]? := by
      rw [← List.head?_append, ← hdrop, List.head?_drop]
    rw [advance, hnext, ← nth_succ mark hc, ih hdrop, List.length_cons]
    congr 1
    omega

/-! ### The order of places -/

theorem before_step (p : Position) (c : Char) (next : Option Char) : p.Before (p.step c next) := by
  unfold step
  split
  · exact Or.inl (Nat.lt_succ_self p.line)
  · exact Or.inr ⟨rfl, Nat.lt_succ_self p.column⟩

theorem Before.trans (h : p.Before q) (h' : q.Before r) : p.Before r := by
  unfold Before at *
  omega

theorem Before.asymm (h : p.Before q) : ¬ q.Before p := by
  unfold Before at *
  omega

theorem not_before_self (p : Position) : ¬ p.Before p := fun h => h.asymm h

/-- Later characters have later places and larger byte offsets. -/
theorem nth_increases (mark : List Char) (hj : j ≤ body.length) (h : i < j) :
    (nth mark body i).Before (nth mark body j) ∧
      (nth mark body i).index < (nth mark body j).index := by
  -- `i` stays where it is, and `j` moves away from it character by character
  induction j with
  | zero => exact absurd h (Nat.not_lt_zero i)
  | succ j ih =>
    obtain ⟨c, hc⟩ : ∃ c, body[j]? = some c := ⟨_, List.getElem?_eq_getElem (by omega)⟩
    have hstep : (nth mark body j).Before (nth mark body (j + 1)) ∧
        (nth mark body j).index < (nth mark body (j + 1)).index := by
      rw [nth_succ mark hc]
      refine ⟨before_step _ c _, ?_⟩
      rw [index_step]
      exact Nat.lt_add_of_pos_right c.utf8Size_pos
    rcases Nat.lt_succ_iff_lt_or_eq.mp h with hlt | rfl
    · obtain ⟨hbefore, hindex⟩ := ih (by omega) hlt
      exact ⟨hbefore.trans hstep.1, Nat.lt_trans hindex hstep.2⟩
    · exact hstep

/-- The order of characters, of lines and columns and of byte offsets is the same. -/
theorem nth_before_iff (mark : List Char) (hi : i ≤ body.length) (hj : j ≤ body.length) :
    ((nth mark body i).Before (nth mark body j) ↔ i < j) ∧
      ((nth mark body i).index < (nth mark body j).index ↔ i < j) := by
  rcases Nat.lt_trichotomy i j with h | rfl | h
  · have hinc := nth_increases mark hj h
    exact ⟨iff_of_true hinc.1 h, iff_of_true hinc.2 h⟩
  · exact ⟨iff_of_false (not_before_self _) (Nat.lt_irrefl i),
      iff_of_false (Nat.lt_irrefl _) (Nat.lt_irrefl i)⟩
  · have hinc := nth_increases mark hi h
    exact ⟨iff_of_false hinc.1.asymm (Nat.lt_asymm h), iff_of_false (Nat.lt_asymm hinc.2)
      (Nat.lt_asymm h)⟩

end Position

/-! ### Cursors -/

namespace Cursor

/-- What can be asked of a cursor: the next character, one ahead without moving, a token. -/
inductive Request where
  | next
  | peek (offset : Nat)
  | token

/-- The cursor after a request. -/
def perform (c : Cursor) : Request → Cursor
  | .next => (c.next?.map Prod.snd).getD c
  | .peek _ => c
  | .token => c.step.after

/-- The cursor stands at the character `k` of the text `body` behind `mark`, or at its end. -/
structure StandsAt (mark body : List Char) (k : Nat) (c : Cursor) : Prop where
  le : k ≤ body.length
  position : c.position = .nth mark body k
  rest : c.rest = body.drop k

namespace StandsAt

variable {c : Cursor}

theorem moveOver (h : c.StandsAt mark body k) (taken rest : List Char)
    (hrest : c.rest = taken ++ rest) :
    (c.moveOver taken rest).StandsAt mark body (k + taken.length) := by
  have hdrop : body.drop k = taken ++ rest := by rw [← h.rest, hrest]
  have hlength := congrArg List.length hdrop
  rw [List.length_drop, List.length_append] at hlength
  refine ⟨?_, ?_, ?_⟩
  · have := h.le
    omega
  · show c.position.advance taken rest = _
    rw [h.position, Position.advance_nth hdrop]
  · show rest = _
    rw [← List.drop_drop, hdrop, List.drop_left]

theorem skipGap (h : c.StandsAt mark body k) :
    ∃ k', k ≤ k' ∧ c.skipGap.StandsAt mark body k' :=
  ⟨_, Nat.le_add_right _ _, h.moveOver _ _ List.takeWhile_append_dropWhile.symm⟩

theorem behind {l : Lexeme} (h : c.StandsAt mark body k) (hl : Lexeme.read? c.rest = some l) :
    (c.behind l).StandsAt mark body (k + l.raw.length) :=
  h.moveOver _ _ (Lexeme.read?_raw hl).2.symm

/-- A cursor moves from character to character, and never back. -/
theorem perform (h : c.StandsAt mark body k) (request : Request) :
    ∃ k', k ≤ k' ∧ (c.perform request).StandsAt mark body k' := by
  cases request with
  | next =>
    unfold Cursor.perform next?
    cases hrest : c.rest with
    | nil => exact ⟨k, Nat.le_refl k, h⟩
    | cons ch rest => exact ⟨_, Nat.le_add_right k _, h.moveOver [ch] rest hrest⟩
  | peek offset => exact ⟨k, Nat.le_refl k, h⟩
  | token =>
    obtain ⟨k', hk', hskip⟩ := h.skipGap
    -- the gap is passed over in any case, and then the lexeme, if there is one
    show ∃ k'', k ≤ k'' ∧ c.step.after.StandsAt mark body k''
    unfold step
    split
    · exact ⟨k', hk', hskip⟩
    · next l hl =>
      rw [stepOver_after]
      exact ⟨_, Nat.le_trans hk' (Nat.le_add_right _ _), hskip.behind hl⟩

theorem performAll (h : c.StandsAt mark body k) (requests : List Request) :
    ∃ k', k ≤ k' ∧ (requests.foldl Cursor.perform c).StandsAt mark body k' := by
  induction requests generalizing c k with
  | nil => exact ⟨k, Nat.le_refl k, h⟩
  | cons request requests ih =>
    obtain ⟨k₁, hk₁, h₁⟩ := h.perform request
    obtain ⟨k₂, hk₂, h₂⟩ := ih h₁
    exact ⟨k₂, Nat.le_trans hk₁ hk₂, h₂⟩

/-- Looking ahead sees the characters from there on. -/
theorem peek (h : c.StandsAt mark body k) (offset : Nat) : c.peek offset = body[k + offset]? := by
  rw [Cursor.peek, h.rest, List.getElem?_drop]

/-- The next character is the one that the cursor stands at, and the cursor behind it stands at
the one after it. -/
theorem next?_eq (h : c.StandsAt mark body k) :
    c.next? = body[k]?.map fun ch => (ch, ⟨.nth mark body (k + 1), body.drop (k + 1)⟩) := by
  unfold next?
  rw [← List.head?_drop, ← h.rest]
  cases hrest : c.rest with
  | nil => rfl
  | cons ch rest =>
    have hmove : (c.moveOver [ch] rest).StandsAt mark body (k + 1) := h.moveOver [ch] rest hrest
    show some (ch, c.moveOver [ch] rest) = some (ch, _)
    rw [← hmove.position, ← hmove.rest]

end StandsAt

end Cursor

/-! ### Tokens and faults -/

/-- The token reads the characters from `i` up to `j`, and its span tells their places. -/
structure Token.StandsAt (mark body : List Char) (i j : Nat) (t : Token) : Prop where
  lt : i < j
  le : j ≤ body.length
  start : t.span.start = .nth mark body i
  stop : t.span.stop = .nth mark body j
  spells : Spells t.kind t.value.toList ((body.take j).drop i) (body.drop j)

/-- The fault is that of a string which begins at the character `i` and which its line does not
close. -/
def Fault.OpensAt (mark body : List Char) (i : Nat) (f : Fault) : Prop :=
  ∃ quote, body[i]? = some quote ∧ IsQuoteMark quote ∧ Unclosed quote (body.drop (i + 1)) ∧
    f = ⟨.unterminatedString quote, .nth mark body i⟩

variable {c after : Cursor} {t : Token} {f : Fault}

theorem Token.StandsAt.index_lt (h : t.StandsAt mark body i j) :
    t.span.start.index < t.span.stop.index := by
  rw [h.start, h.stop]
  exact (Position.nth_increases mark h.le h.lt).2

namespace Cursor.StandsAt

/-- A token that is read from a cursor stands behind it, and the new cursor behind the token. -/
theorem step_token (h : c.StandsAt mark body k) (hstep : c.step = .token t after) :
    ∃ i j, k ≤ i ∧ t.StandsAt mark body i j ∧ after.StandsAt mark body j := by
  have hd := c.step_describes
  rw [hstep] at hd
  obtain ⟨gap, raw, hrest, -, hspells, hstart, hstop, hafter⟩ := hd
  -- the cursor passes the gap, then the token, and stands at a character after each
  have hgap := h.moveOver gap (raw ++ after.rest) hrest
  have hraw := hgap.moveOver raw after.rest rfl
  have hdrop : body.drop (k + gap.length) = raw ++ after.rest := hgap.rest.symm
  have hpiece : (body.take (k + gap.length + raw.length)).drop (k + gap.length) = raw := by
    rw [List.drop_take, hdrop, Nat.add_sub_cancel_left, List.take_left]
  have hstart' : t.span.start = .nth mark body (k + gap.length) := by
    rw [hstart, ← hgap.position]
    rfl
  have hstop' : t.span.stop = .nth mark body (k + gap.length + raw.length) := by
    rw [hstop, hstart', Position.advance_nth hdrop]
  refine ⟨k + gap.length, k + gap.length + raw.length, Nat.le_add_right k _, ?_, ?_⟩
  · refine ⟨?_, hraw.le, hstart', hstop', ?_⟩
    · exact Nat.lt_add_of_pos_right (List.length_pos_iff.mpr hspells.ne_nil)
    · rw [hpiece, ← hraw.rest]
      exact hspells
  · exact ⟨hraw.le, by rw [← hafter, hstop'], hraw.rest⟩

/-- A fault that is read from a cursor stands where the string behind it begins. -/
theorem step_fault (h : c.StandsAt mark body k) (hstep : c.step = .fault f after) :
    ∃ i, k ≤ i ∧ f.OpensAt mark body i := by
  have hd := c.step_describes
  rw [hstep] at hd
  obtain ⟨gap, quote, rest, hrest, -, hq, hopen, rfl⟩ := hd
  -- a fault is placed behind the gap, at the quote mark, and not where the line ends
  have hgap := h.moveOver gap (quote :: rest) hrest
  have hdrop : body.drop (k + gap.length) = quote :: rest := hgap.rest.symm
  refine ⟨k + gap.length, Nat.le_add_right k _, quote, ?_, hq, ?_, ?_⟩
  · rw [← List.head?_drop, hdrop]
    rfl
  · rw [← List.tail_drop, hdrop]
    exact hopen
  · rw [← hgap.position]
    rfl

/-- All tokens that are read from a cursor on stand behind it, and so does the first fault. -/
theorem ofSteps (h : c.StandsAt mark body k) :
    (∀ t ∈ (TokenStream.ofSteps c.steps).tokens, ∃ i j, t.StandsAt mark body i j) ∧
      ∀ f, (TokenStream.ofSteps c.steps).fault = some f → ∃ i, f.OpensAt mark body i := by
  -- along the run of the lexer: the cursor of each step stands at a character of its own
  induction c using Cursor.steps.induct generalizing k with
  | case1 c after hstep =>
    rw [Cursor.steps_of_finished hstep]
    refine ⟨fun _ ht => absurd ht List.not_mem_nil, ?_⟩
    intro f hf
    cases hf
  | case2 c t after hstep ih =>
    rw [Cursor.steps_of_token hstep]
    obtain ⟨i, j, -, ht, hafter⟩ := h.step_token hstep
    obtain ⟨htokens, hfault⟩ := ih hafter
    exact ⟨List.forall_mem_cons.mpr ⟨⟨i, j, ht⟩, htokens⟩, hfault⟩
  | case3 c f after hstep _ =>
    rw [Cursor.steps_of_fault hstep]
    obtain ⟨i, -, hf⟩ := h.step_fault hstep
    refine ⟨fun _ ht => absurd ht List.not_mem_nil, ?_⟩
    intro f' hf'
    obtain rfl := Option.some.inj hf'
    exact ⟨i, hf⟩

end Cursor.StandsAt

/-- A text behind its byte order mark, with the cursor at its first character. -/
theorem Cursor.standsAt_ofText (source : String) :
    ∃ mark body, source.toList = mark ++ body ∧
      (mark = [byteOrderMark] ∨ mark = [] ∧ source.toList.head? ≠ some byteOrderMark) ∧
      (ofText source).StandsAt mark body 0 := by
  obtain ⟨mark, hsource, hmark, hposition⟩ := ofText_mark source
  refine ⟨mark, (ofText source).rest, hsource, hmark, Nat.zero_le _, ?_, rfl⟩
  rw [hposition, Position.nth_zero]

/-- Without a byte order mark the text begins at its first character. -/
theorem Cursor.standsAt_unmarked {source : String}
    (h : source.toList.head? ≠ some byteOrderMark) :
    (ofText source).StandsAt [] source.toList 0 := by
  obtain ⟨mark, body, hsource, hmark, hcursor⟩ := standsAt_ofText source
  rcases hmark with rfl | ⟨rfl, -⟩
  · exact absurd (by rw [hsource]; rfl) h
  · rwa [hsource]

/-! ### Byte order marks -/

/-- A place with more bytes before it. -/
def Position.shift (n : Nat) (p : Position) : Position := { p with index := p.index + n }

/-- A cursor with more bytes before it. -/
def Cursor.shift (n : Nat) (c : Cursor) : Cursor := ⟨c.position.shift n, c.rest⟩

/-- What a step finds, with more bytes before it. -/
def Step.shift (n : Nat) : Step → Step
  | .finished after => .finished (after.shift n)
  | .token t after => .token (t.move (.shift n)) (after.shift n)
  | .fault f after => .fault (f.move (.shift n)) (after.shift n)

variable (n : Nat)

theorem Position.step_shift (p : Position) (ch : Char) (next : Option Char) :
    (p.shift n).step ch next = (p.step ch next).shift n := by
  unfold step
  split
  · show (⟨p.line + 1, 1, p.index + n + ch.utf8Size⟩ : Position) = ⟨_, _, p.index + _ + n⟩
    rw [Nat.add_right_comm]
  · show (⟨p.line, p.column + 1, p.index + n + ch.utf8Size⟩ : Position) = ⟨_, _, p.index + _ + n⟩
    rw [Nat.add_right_comm]

theorem Position.advance_shift (p : Position) (taken rest : List Char) :
    (p.shift n).advance taken rest = (p.advance taken rest).shift n := by
  induction taken generalizing p with
  | nil => rfl
  | cons ch cs ih => rw [advance, advance, step_shift, ih]

namespace Cursor

theorem moveOver_shift (c : Cursor) (taken rest : List Char) :
    (c.shift n).moveOver taken rest = (c.moveOver taken rest).shift n := by
  unfold moveOver shift
  rw [Position.advance_shift]

/-- Reading does not look at the bytes before. -/
theorem step_shift (c : Cursor) : (c.shift n).step = c.step.shift n := by
  -- what is read is read from the text alone, so the cases are those of the text
  have hskip : (c.shift n).skipGap = c.skipGap.shift n := moveOver_shift n c _ _
  have hrest : (c.skipGap.shift n).rest = c.skipGap.rest := rfl
  unfold step
  rw [hskip, hrest]
  cases Lexeme.read? c.skipGap.rest with
  | none => rfl
  | some l =>
    have hbehind : (c.skipGap.shift n).behind l = (c.skipGap.behind l).shift n :=
      moveOver_shift n c.skipGap _ _
    show (c.skipGap.shift n).stepOver l = (c.skipGap.stepOver l).shift n
    unfold stepOver
    rw [hbehind]
    cases l.meaning <;> rfl

theorem perform_shift (c : Cursor) (request : Request) :
    (c.shift n).perform request = (c.perform request).shift n := by
  cases request with
  | next =>
    have hrest : (c.shift n).rest = c.rest := rfl
    unfold perform next?
    rw [hrest]
    cases c.rest with
    | nil => rfl
    | cons ch rest => exact moveOver_shift n c [ch] rest
  | peek offset => rfl
  | token =>
    show (c.shift n).step.after = c.step.after.shift n
    rw [step_shift]
    cases c.step <;> rfl

theorem foldl_perform_shift (c : Cursor) (requests : List Request) :
    requests.foldl perform (c.shift n) = (requests.foldl perform c).shift n := by
  induction requests generalizing c with
  | nil => rfl
  | cons request requests ih => rw [List.foldl_cons, List.foldl_cons, perform_shift, ih]

theorem ofText_behind_mark {source : String} (h : source.toList.head? ≠ some byteOrderMark) :
    ofText ("\ufeff" ++ source) = (ofText source).shift 3 := by
  unfold ofText
  rw [String.toList_append]
  -- only the first mark is skipped: the text behind it begins with another character
  cases htext : source.toList with
  | nil => rfl
  | cons ch cs =>
    have hch : ch ≠ byteOrderMark := by
      rintro rfl
      exact h (by rw [htext]; rfl)
    simp [hch, shift, Position.shift, Position.start]
    rfl

end Cursor

theorem TokenStream.ofSteps_shift (c : Cursor) :
    ofSteps (c.shift n).steps = (ofSteps c.steps).move (.shift n) := by
  induction c using Cursor.steps.induct with
  | case1 c after hstep =>
    have hshift := Cursor.step_shift n c
    rw [hstep] at hshift
    rw [Cursor.steps_of_finished hstep, Cursor.steps_of_finished hshift]
    rfl
  | case2 c t after hstep ih =>
    have hshift := Cursor.step_shift n c
    rw [hstep] at hshift
    rw [Cursor.steps_of_token hstep, Cursor.steps_of_token hshift]
    show cons _ (ofSteps (after.shift n).steps) = _
    rw [ih]
    rfl
  | case3 c f after hstep _ =>
    have hshift := Cursor.step_shift n c
    rw [hstep] at hshift
    rw [Cursor.steps_of_fault hstep, Cursor.steps_of_fault hshift]
    rfl

theorem TokenStream.ofText_behind_mark {source : String}
    (h : source.toList.head? ≠ some byteOrderMark) :
    ofText ("\ufeff" ++ source) = (ofText source).move (.shift 3) := by
  unfold ofText
  rw [Cursor.ofText_behind_mark h, ofSteps_shift]

theorem tokenize_behind_mark {source : String} (h : source.toList.head? ≠ some byteOrderMark) :
    tokenize ("\ufeff" ++ source) =
      moved (.shift 3) (·.map (·.move (.shift 3))) (tokenize source) := by
  unfold tokenize
  rw [TokenStream.ofText_behind_mark h]
  cases hstream : TokenStream.ofText source with
  | mk tokens fault => cases fault <;> rfl

theorem RuleFile.parse_behind_mark [Regex.Dialect] {source : String}
    (h : source.toList.head? ≠ some byteOrderMark) :
    parse ("\ufeff" ++ source) =
      moved (.shift 3) (·.mapTokens (·.move (.shift 3))) (parse source) := by
  unfold parse
  rw [TokenStream.ofText_behind_mark h, ofTokens_move]

/-! ### Whole texts -/

/-- What a cursor tells at the character `k` of the text `source`, which is `body` behind `mark`.
Its byte offset lies on a character boundary and not past the end, and it is the size of the text
only where nothing follows; it sees the characters from there on; and the tokens and faults that
are read from it stand where their characters do. -/
structure Cursor.ExactAt (source : String) (mark body : List Char) (k : Nat) (c : Cursor) :
    Prop where
  standsAt : c.StandsAt mark body k
  boundary : String.Pos.Raw.IsValid source ⟨c.position.index⟩
  atEnd : c.atEnd = true ↔ c.position.index = source.utf8ByteSize
  peek : ∀ n, c.peek n = body[k + n]?
  next : c.next? = body[k]?.map fun ch => (ch, ⟨.nth mark body (k + 1), body.drop (k + 1)⟩)
  token : ∀ t after, c.step = .token t after →
    ∃ i j, k ≤ i ∧ t.StandsAt mark body i j ∧ after.StandsAt mark body j
  fault : ∀ f after, c.step = .fault f after → ∃ i, k ≤ i ∧ f.OpensAt mark body i

theorem Cursor.StandsAt.exactAt {source : String} (h : c.StandsAt mark body k)
    (hsource : source.toList = mark ++ body) : c.ExactAt source mark body k := by
  -- the text is cut where the cursor stands, which puts a boundary there
  have hsplit : source = String.ofList (mark ++ body.take k) ++ String.ofList (body.drop k) := by
    rw [← String.ofList_append, List.append_assoc, List.take_append_drop, ← hsource,
      String.ofList_toList]
  have hindex : c.position.index = (String.ofList (mark ++ body.take k)).utf8ByteSize := by
    rw [h.position]
    rfl
  constructor
  case standsAt => exact h
  case boundary =>
    refine String.Pos.Raw.isValid_iff_exists_append.mpr ⟨_, _, hsplit, ?_⟩
    rw [hindex]
    rfl
  case atEnd =>
    have hsize := congrArg String.utf8ByteSize hsplit
    rw [String.utf8ByteSize_append, ← hindex] at hsize
    rw [hsize, atEnd, h.rest, List.isEmpty_iff]
    constructor
    · intro hnil
      simp [hnil]
    · intro hequal
      have hzero : (String.ofList (body.drop k)).utf8ByteSize = 0 := by omega
      simpa using String.utf8ByteSize_eq_zero_iff.mp hzero
  case peek => exact h.peek
  case next => exact h.next?_eq
  case token => exact fun t after hstep => h.step_token hstep
  case fault => exact fun f after hstep => h.step_fault hstep

/-- A rule file is refused at an unterminated string, or at one end of a token. -/
theorem RuleFile.place_of_parse [Regex.Dialect] {source : String} (h : parse source = .error f) :
    tokenize source = .error f ∨ ∃ t ∈ (TokenStream.ofText source).tokens,
      f.place = t.span.start ∨ f.place = t.span.stop := by
  rcases refusedFor_of_ofTokens h with hfault | ⟨t, ht⟩
  · exact Or.inl (tokenize_eq_error_iff.mpr ⟨_, by rw [← hfault]⟩)
  · refine Or.inr ⟨t, ht.mem, ?_⟩
    rcases ht.place with ⟨-, hstart⟩ | ⟨-, -, hstop⟩
    · exact Or.inl hstart
    · exact Or.inr hstop

/-- **Positions are exact.**  Whatever is asked of a cursor over `source`, it stands at some
character `k` behind the byte order mark and tells the place of that character.  All tokens have
the places of their first character and behind their last one, and all faults that of a quote mark
or of an end of a token.  The order of lines and columns is that of byte offsets.  And a byte
order mark in front of a text without one changes nothing but the byte offsets, which grow by
its three bytes. -/
theorem positions_exact [Regex.Dialect] (source : String) :
    ∃ mark body, source.toList = mark ++ body ∧
      (mark = [byteOrderMark] ∨ mark = [] ∧ source.toList.head? ≠ some byteOrderMark) ∧
      (∀ requests : List Cursor.Request, ∃ k,
        (requests.foldl Cursor.perform (.ofText source)).ExactAt source mark body k) ∧
      (∀ t ∈ (TokenStream.ofText source).tokens,
        t.span.start.index < t.span.stop.index ∧ ∃ i j, t.StandsAt mark body i j) ∧
      (∀ f, tokenize source = .error f → ∃ i, f.OpensAt mark body i) ∧
      (∀ f, RuleFile.parse source = .error f → tokenize source = .error f ∨
        ∃ t ∈ (TokenStream.ofText source).tokens,
          f.place = t.span.start ∨ f.place = t.span.stop) ∧
      (∀ i j, i ≤ body.length → j ≤ body.length →
        ((Position.nth mark body i).Before (.nth mark body j) ↔
          (Position.nth mark body i).index < (Position.nth mark body j).index)) ∧
      (mark = [] →
        (∀ requests : List Cursor.Request,
          let c := requests.foldl Cursor.perform (.ofText source)
          let c' := requests.foldl Cursor.perform (.ofText ("\ufeff" ++ source))
          c' = c.shift 3 ∧ c'.step = c.step.shift 3) ∧
        tokenize ("\ufeff" ++ source) =
          moved (.shift 3) (·.map (·.move (.shift 3))) (tokenize source) ∧
        RuleFile.parse ("\ufeff" ++ source) =
          moved (.shift 3) (·.mapTokens (·.move (.shift 3))) (RuleFile.parse source)) := by
  obtain ⟨mark, body, hsource, hmark, hcursor⟩ := Cursor.standsAt_ofText source
  obtain ⟨htokens, hfault⟩ := hcursor.ofSteps
  refine ⟨mark, body, hsource, hmark, ?_, ?_, ?_, ?_, ?_, ?_⟩
  · intro requests
    obtain ⟨k, -, hstands⟩ := hcursor.performAll requests
    exact ⟨k, hstands.exactAt hsource⟩
  · intro t ht
    obtain ⟨i, j, hstands⟩ := htokens t ht
    exact ⟨hstands.index_lt, i, j, hstands⟩
  · intro f hf
    obtain ⟨tokens, hstream⟩ := tokenize_eq_error_iff.mp hf
    exact hfault f (congrArg TokenStream.fault hstream)
  · exact fun f hf => RuleFile.place_of_parse hf
  · intro i j hi hj
    rw [(Position.nth_before_iff mark hi hj).1, (Position.nth_before_iff mark hi hj).2]
  · intro hnil
    -- a text without a mark does not begin with one, so the new mark is the one that is skipped
    have hhead : source.toList.head? ≠ some byteOrderMark := by
      rcases hmark with hmark | ⟨-, hhead⟩
      · rw [hnil] at hmark
        cases hmark
      · exact hhead
    refine ⟨?_, tokenize_behind_mark hhead, RuleFile.parse_behind_mark hhead⟩
    intro requests c c'
    have hshift : c' = c.shift 3 := by
      show requests.foldl Cursor.perform (.ofText ("\ufeff" ++ source)) = _
      rw [Cursor.ofText_behind_mark hhead, Cursor.foldl_perform_shift]
    exact ⟨hshift, by rw [hshift, Cursor.step_shift]⟩

/-- A character of two bytes, a CR alone, a CR with its LF, a character of three bytes, and a string
that its line does not close. -/
def returnsSample : String := "\u00e9\r\r\n\u4e16 'c"

/-- The first CR breaks the line, the second leaves that to the LF. -/
theorem positions_exact_returnsSample :
    (TokenStream.ofText returnsSample).tokens.map (·.span.start) =
      [⟨1, 1, 0⟩, ⟨1, 2, 2⟩, ⟨2, 1, 3⟩, ⟨2, 2, 4⟩, ⟨3, 1, 5⟩] ∧
    tokenize returnsSample = .error ⟨.unterminatedString '\'', ⟨3, 3, 9⟩⟩ ∧
    tokenize ("\ufeff" ++ returnsSample) = .error ⟨.unterminatedString '\'', ⟨3, 3, 12⟩⟩ := by
  have hhead : returnsSample.toList.head? ≠ some byteOrderMark := by decide +kernel
  have hstream : TokenStream.ofText returnsSample =
      ⟨(TokenStream.ofText returnsSample).tokens,
        some ⟨.unterminatedString '\'', ⟨3, 3, 9⟩⟩⟩ := by decide +kernel
  have hfault : tokenize returnsSample = .error ⟨.unterminatedString '\'', ⟨3, 3, 9⟩⟩ :=
    tokenize_eq_error_iff.mpr ⟨_, hstream⟩
  obtain ⟨mark, body, hsource, hmark, -, -, -, -, -, hshift⟩ := positions_exact returnsSample
  have hnil : mark = [] := by
    rcases hmark with rfl | ⟨hnil, -⟩
    · exact absurd (by rw [hsource]; rfl) hhead
    · exact hnil
  refine ⟨by decide +kernel, hfault, ?_⟩
  rw [(hshift hnil).2.1, hfault]
  rfl

end HostRules
