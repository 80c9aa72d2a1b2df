/-
HostRules/Proofs/Tiling.lean

Nothing of a text is lost between its tokens.  `Laid p text tokens q left` says that the
text from the place `p` on is gap, lexeme, gap, lexeme and so on, one lexeme for each of the
tokens, up to the place `q` with `left` still to come; every token spells its lexeme and
carries the places of its first character and behind its last.

Main results: the tokens of a text are the ones it is laid out with, and it is refused
exactly at the first string that its line does not close (`tokenize_exact`).  Since a layout
determines what is read (`Laid.steps`), the statement is an equivalence in both cases.
-/
import HostRules.Proofs.Spelling

namespace HostRules

/-! ### Layouts -/

/-- Every character is a space between tokens. -/
def OnlyGaps (text : List Char) : Prop := ∀ c ∈ text, isGap c = true

/-- The text from the place `p` on is a row of tokens with gaps before them, up to the place
`q`, where `left` follows. -/
inductive Laid : Position → List Char → List Token → Position → List Char → Prop
  | nil {p text} : Laid p text [] p text
  | cons {p gap raw rest t tokens q left} :
      OnlyGaps gap → Spells t.kind t.value.toList raw rest →
      t.span.start = p.advance gap (raw ++ rest) → t.span.stop = t.span.start.advance raw rest →
      Laid t.span.stop rest tokens q left → Laid p (gap ++ (raw ++ rest)) (t :: tokens) q left

/-- The text from the place `p` on is a gap and a string that its line does not close, and
`f` is the fault of that string at its opening quote mark. -/
def BreaksOff (p : Position) (text : List Char) (f : Fault) : Prop :=
  ∃ gap quote rest, text = gap ++ quote :: rest ∧ OnlyGaps gap ∧ IsQuoteMark quote ∧
    Unclosed quote rest ∧ f = ⟨.unterminatedString quote, p.advance gap (quote :: rest)⟩

/-- The tokens stand for pieces of the text one behind the other: each piece is the bytes of
the text between the ends of its token's span, and no piece is empty. -/
def CoversInOrder (text : String) (tokens : List Token) : Prop :=
  (∀ t ∈ tokens, ∃ before raw after : String, text = before ++ raw ++ after ∧ raw ≠ "" ∧
    Spells t.kind t.value.toList raw.toList after.toList ∧
    t.span.start.index = before.utf8ByteSize ∧
    t.span.stop.index = (before ++ raw).utf8ByteSize) ∧
  tokens.Pairwise (·.span.stop.index ≤ ·.span.start.index)

variable {p q r : Position} {text mid left gap raw rest : List Char} {tokens more : List Token}
variable {t : Token} {f : Fault} {c after : Cursor}

theorem Laid.append (h : Laid p text tokens q mid) (h' : Laid q mid more r left) :
    Laid p text (tokens ++ more) r left := by
  induction h with
  | nil => exact h'
  | cons hg hs hstart hstop _ ih => exact .cons hg hs hstart hstop (ih h')

/-! ### One step -/

theorem OnlyGaps.takeWhile (text : List Char) : OnlyGaps (text.takeWhile isGap) := by
  intro c hc
  exact List.all_eq_true.mp List.all_takeWhile c hc

theorem OnlyGaps.of_dropWhile_eq_nil (h : text.dropWhile isGap = []) : OnlyGaps text := by
  have htake : text.takeWhile isGap = text := by
    have happ := List.takeWhile_append_dropWhile (p := isGap) (l := text)
    rwa [h, List.append_nil] at happ
  rw [← htake]
  exact .takeWhile text

/-- What a step finds is what stands behind the gap. -/
theorem Cursor.step_describes (c : Cursor) :
    match c.step with
    | .finished _ => OnlyGaps c.rest
    | .token t after =>
      ∃ gap raw, c.rest = gap ++ (raw ++ after.rest) ∧ OnlyGaps gap ∧
        Spells t.kind t.value.toList raw after.rest ∧
        t.span.start = c.position.advance gap (raw ++ after.rest) ∧
        t.span.stop = t.span.start.advance raw after.rest ∧ t.span.stop = after.position
    | .fault f _ => BreaksOff c.position c.rest f := by
  -- the gap is the spaces that the step skips; what is behind them is not a space
  have happ := List.takeWhile_append_dropWhile (p := isGap) (l := c.rest)
  have hhead : ∀ d, c.skipGap.rest.head? = some d → isGap d = false := fun d hd =>
    not_of_head?_dropWhile hd
  unfold Cursor.step
  cases hl : Lexeme.read? c.skipGap.rest with
  | none => exact .of_dropWhile_eq_nil (Lexeme.read?_eq_none_iff.mp hl)
  | some l =>
    have hd := Lexeme.read?_describes hhead hl
    have hraw : l.raw ++ l.rest = c.rest.dropWhile isGap := (Lexeme.read?_raw hl).2
    unfold Lexeme.Describes at hd
    obtain ⟨meaning, raw, rest⟩ := l
    cases meaning with
    | token kind value =>
      refine ⟨c.rest.takeWhile isGap, raw, ?_, .takeWhile _, ?_, ?_, rfl, rfl⟩
      · show c.rest = _ ++ (raw ++ rest)
        rw [hraw, happ]
      · show Spells kind (String.ofList value).toList raw rest
        rw [String.toList_ofList]
        exact hd
      · show c.position.advance _ (c.rest.dropWhile isGap) = c.position.advance _ (raw ++ rest)
        rw [hraw]
    | unterminated quote =>
      obtain ⟨hq, cs, hcs, hu⟩ := hd
      have hcs' : c.rest.dropWhile isGap = quote :: cs := hcs
      refine ⟨c.rest.takeWhile isGap, quote, cs, ?_, .takeWhile _, hq, hu, ?_⟩
      · rw [← hcs', happ]
      · show (⟨_, c.position.advance _ (c.rest.dropWhile isGap)⟩ : Fault) = _
        rw [hcs']

theorem Cursor.skipGap_of_gap (hg : OnlyGaps gap)
    (hhead : ∀ d, text.head? = some d → isGap d = false) :
    (⟨p, gap ++ text⟩ : Cursor).skipGap = ⟨p.advance gap text, text⟩ := by
  show (⟨p.advance _ _, _⟩ : Cursor) = _
  rw [takeWhile_append_of_ends hg hhead, dropWhile_append_of_ends hg hhead]

/-- What spells a token behind a gap is found in one step. -/
theorem Cursor.step_of_spells (hg : OnlyGaps gap)
    (hs : Spells t.kind t.value.toList raw rest)
    (hstart : t.span.start = p.advance gap (raw ++ rest))
    (hstop : t.span.stop = t.span.start.advance raw rest) :
    (⟨p, gap ++ (raw ++ rest)⟩ : Cursor).step = .token t ⟨t.span.stop, rest⟩ := by
  have hhead : ∀ d, (raw ++ rest).head? = some d → isGap d = false := by
    intro d hd
    obtain ⟨e, es, rfl⟩ := List.exists_cons_of_ne_nil hs.ne_nil
    exact hs.not_gap hd
  -- with its ends put in, the token is the one that the step makes
  obtain ⟨kind, value, start, stop⟩ := t
  obtain rfl : start = p.advance gap (raw ++ rest) := hstart
  obtain rfl : stop = (p.advance gap (raw ++ rest)).advance raw rest := hstop
  unfold Cursor.step
  rw [Cursor.skipGap_of_gap hg hhead, Lexeme.read?_of_spells hs]
  simp [Cursor.stepOver, Cursor.behind, Cursor.moveOver]

theorem Cursor.step_of_breaksOff (h : BreaksOff p text f) :
    ∃ after, (⟨p, text⟩ : Cursor).step = .fault f after := by
  obtain ⟨gap, quote, rest, rfl, hg, hq, hu, rfl⟩ := h
  have hhead : ∀ d, (quote :: rest).head? = some d → isGap d = false := by
    intro d hd
    rw [← Option.some.inj hd]
    exact hq.not_gap
  obtain ⟨raw, rest', hread⟩ := Lexeme.read?_unterminated hq hu
  unfold Cursor.step
  rw [Cursor.skipGap_of_gap hg hhead, hread]
  exact ⟨_, rfl⟩

theorem Cursor.step_of_onlyGaps (h : OnlyGaps text) :
    ∃ after, (⟨p, text⟩ : Cursor).step = .finished after := by
  have hskip : (⟨p, text ++ []⟩ : Cursor).skipGap = ⟨p.advance text [], []⟩ :=
    Cursor.skipGap_of_gap h nofun
  rw [List.append_nil] at hskip
  unfold Cursor.step
  rw [hskip]
  exact ⟨_, rfl⟩

/-! ### All steps -/

theorem Cursor.steps_of_finished (h : c.step = .finished after) : c.steps = [.finished after] := by
  rw [Cursor.steps]
  split <;> simp_all

theorem Cursor.steps_of_token (h : c.step = .token t after) :
    c.steps = .token t after :: after.steps := by
  rw [Cursor.steps]
  split <;> simp_all

theorem Cursor.steps_of_fault (h : c.step = .fault f after) :
    c.steps = .fault f after :: after.steps := by
  rw [Cursor.steps]
  split <;> simp_all

namespace TokenStream

theorem ofSteps_of_onlyGaps (h : OnlyGaps text) :
    ofSteps (⟨p, text⟩ : Cursor).steps = ⟨[], none⟩ := by
  obtain ⟨after, hstep⟩ := Cursor.step_of_onlyGaps (p := p) h
  rw [Cursor.steps_of_finished hstep]
  rfl

theorem ofSteps_of_breaksOff (h : BreaksOff p text f) :
    ofSteps (⟨p, text⟩ : Cursor).steps = ⟨[], some f⟩ := by
  obtain ⟨after, hstep⟩ := Cursor.step_of_breaksOff h
  rw [Cursor.steps_of_fault hstep]
  rfl

/-- Every text is laid out with the tokens that are read from it; behind them only gaps are
left, or the string that its line does not close. -/
theorem laid_ofSteps (c : Cursor) :
    ∃ q left, Laid c.position c.rest (ofSteps c.steps).tokens q left ∧
      match (ofSteps c.steps).fault with
      | none => OnlyGaps left
      | some f => BreaksOff q left f := by
  induction c using Cursor.steps.induct with
  | case1 c after h =>
    have hd := c.step_describes
    rw [h] at hd
    rw [Cursor.steps_of_finished h]
    exact ⟨c.position, c.rest, .nil, hd⟩
  | case2 c t after h ih =>
    have hd := c.step_describes
    rw [h] at hd
    obtain ⟨gap, raw, hrest, hg, hs, hstart, hstop, hafter⟩ := hd
    obtain ⟨q, left, hlaid, hend⟩ := ih
    rw [← hafter] at hlaid
    rw [Cursor.steps_of_token h, hrest]
    exact ⟨q, left, .cons hg hs hstart hstop hlaid, hend⟩
  -- behind a fault nothing counts: the layout ends where the string begins
  | case3 c f after h _ =>
    have hd := c.step_describes
    rw [h] at hd
    rw [Cursor.steps_of_fault h]
    exact ⟨c.position, c.rest, .nil, hd⟩

end TokenStream

/-- A layout determines the tokens that are read first. -/
theorem Laid.steps (h : Laid p text tokens q left) :
    TokenStream.ofSteps (⟨p, text⟩ : Cursor).steps =
      ⟨tokens ++ (TokenStream.ofSteps (⟨q, left⟩ : Cursor).steps).tokens,
        (TokenStream.ofSteps (⟨q, left⟩ : Cursor).steps).fault⟩ := by
  induction h with
  | nil => rfl
  | cons hg hs hstart hstop _ ih =>
    rw [Cursor.steps_of_token (Cursor.step_of_spells hg hs hstart hstop), TokenStream.ofSteps, ih]
    rfl

/-- A text is read to its end exactly when it is laid out up to a last gap. -/
theorem TokenStream.ofSteps_eq_complete_iff :
    TokenStream.ofSteps (⟨p, text⟩ : Cursor).steps = ⟨tokens, none⟩ ↔
      ∃ q gap, Laid p text tokens q gap ∧ OnlyGaps gap := by
  constructor
  · intro h
    obtain ⟨q, left, hlaid, hend⟩ := laid_ofSteps ⟨p, text⟩
    rw [h] at hlaid hend
    exact ⟨q, left, hlaid, hend⟩
  · rintro ⟨q, gap, hlaid, hg⟩
    rw [hlaid.steps, ofSteps_of_onlyGaps hg, List.append_nil]

/-- Reading a text breaks off exactly at a string that its line does not close. -/
theorem TokenStream.ofSteps_eq_broken_iff :
    TokenStream.ofSteps (⟨p, text⟩ : Cursor).steps = ⟨tokens, some f⟩ ↔
      ∃ q left, Laid p text tokens q left ∧ BreaksOff q left f := by
  constructor
  · intro h
    obtain ⟨q, left, hlaid, hend⟩ := laid_ofSteps ⟨p, text⟩
    rw [h] at hlaid hend
    exact ⟨q, left, hlaid, hend⟩
  · rintro ⟨q, left, hlaid, hb⟩
    rw [hlaid.steps, ofSteps_of_breaksOff hb, List.append_nil]

/-! ### Byte offsets -/

theorem Position.index_advance (p : Position) (taken rest : List Char) :
    (p.advance taken rest).index = p.index + (String.ofList taken).utf8ByteSize := by
  induction taken generalizing p with
  | nil => simp
  | cons c cs ih =>
    have hsplit : String.ofList (c :: cs) = String.singleton c ++ String.ofList cs := by
      rw [String.singleton_eq_ofList, ← String.ofList_append]
      rfl
    rw [advance, ih, index_step, hsplit, String.utf8ByteSize_append, String.utf8ByteSize_singleton]
    omega

/-- A cursor starts behind the byte order mark, if the text has one. -/
theorem Cursor.ofText_mark (text : String) :
    ∃ mark, text.toList = mark ++ (ofText text).rest ∧
      (mark = [byteOrderMark] ∨ mark = [] ∧ text.toList.head? ≠ some byteOrderMark) ∧
      (ofText text).position = ⟨1, 1, (String.ofList mark).utf8ByteSize⟩ := by
  unfold ofText
  cases htext : text.toList with
  | nil => exact ⟨[], rfl, Or.inr ⟨rfl, nofun⟩, rfl⟩
  | cons c cs =>
    by_cases hc : c = byteOrderMark
    · subst hc
      exact ⟨[byteOrderMark], by simp, Or.inl rfl, by simp [Position.start]⟩
    · exact ⟨[], by simp [hc], Or.inr ⟨rfl, by simpa using hc⟩, by simp [hc, Position.start]⟩

theorem Laid.start_le (h : Laid p text tokens q left) :
    ∀ t ∈ tokens, p.index ≤ t.span.start.index := by
  induction h with
  | nil => nofun
  | cons _ _ hstart hstop _ ih =>
    intro t' ht'
    have hle := congrArg Position.index hstart
    have hle' := congrArg Position.index hstop
    rw [Position.index_advance] at hle hle'
    rcases List.mem_cons.mp ht' with rfl | ht'
    · omega
    · have := ih t' ht'
      omega

theorem Laid.pairwise (h : Laid p text tokens q left) :
    tokens.Pairwise (·.span.stop.index ≤ ·.span.start.index) := by
  induction h with
  | nil => exact List.Pairwise.nil
  | cons _ _ _ _ h ih => exact List.pairwise_cons.mpr ⟨h.start_le, ih⟩

/-- A token of a text that is laid out behind `before` stands for the bytes in its span. -/
theorem Laid.piece {before : List Char} (h : Laid p text tokens q left)
    (hp : p.index = (String.ofList before).utf8ByteSize) :
    ∀ t ∈ tokens, ∃ front raw after, before ++ text = front ++ raw ++ after ∧
      Spells t.kind t.value.toList raw after ∧
      t.span.start.index = (String.ofList front).utf8ByteSize ∧
      t.span.stop.index = (String.ofList (front ++ raw)).utf8ByteSize := by
  -- the invariant is that `p` counts the bytes of all that stands before the text
  induction h generalizing before with
  | nil => nofun
  | @cons p gap raw rest t tokens q left hg hs hstart hstop _ ih =>
    have hi : t.span.start.index = (String.ofList (before ++ gap)).utf8ByteSize := by
      rw [hstart, Position.index_advance, hp, String.ofList_append, String.utf8ByteSize_append]
    have hi' : t.span.stop.index = (String.ofList (before ++ gap ++ raw)).utf8ByteSize := by
      rw [hstop, Position.index_advance, hi, ← String.utf8ByteSize_append, ← String.ofList_append]
    intro t' ht'
    rcases List.mem_cons.mp ht' with rfl | ht'
    · exact ⟨before ++ gap, raw, rest, by simp, hs, hi, hi'⟩
    · obtain ⟨front, raw', after, heq, hs', hstart', hstop'⟩ := ih hi' t' ht'
      exact ⟨front, raw', after, by simpa using heq, hs', hstart', hstop'⟩

theorem Laid.coversInOrder {s : String} {mark : List Char} (h : Laid p text tokens q left)
    (hs : s.toList = mark ++ text) (hp : p.index = (String.ofList mark).utf8ByteSize) :
    CoversInOrder s tokens := by
  refine ⟨fun t ht => ?_, h.pairwise⟩
  obtain ⟨front, raw, after, heq, hspell, hstart, hstop⟩ := h.piece hp t ht
  refine ⟨String.ofList front, String.ofList raw, String.ofList after, ?_, ?_, ?_, hstart, ?_⟩
  · rw [← String.ofList_append, ← String.ofList_append, ← heq, ← hs, String.ofList_toList]
  · intro hempty
    exact hspell.ne_nil (by simpa using congrArg String.toList hempty)
  · simpa using hspell
  · rw [hstop, String.ofList_append]

/-! ### Whole texts -/

theorem tokenize_eq_ok_iff {source : String} :
    tokenize source = .ok tokens ↔ TokenStream.ofText source = ⟨tokens, none⟩ := by
  cases hstream : TokenStream.ofText source with
  | mk found fault => cases fault <;> simp [tokenize, hstream]

theorem tokenize_eq_error_iff {source : String} :
    tokenize source = .error f ↔ ∃ tokens, TokenStream.ofText source = ⟨tokens, some f⟩ := by
  cases hstream : TokenStream.ofText source with
  | mk found fault => cases fault <;> simp [tokenize, hstream]

/-- **Tokenizing loses nothing and its faults are exact.**  Behind its byte order mark, if it
has one, a text has the tokens `tokens` if and only if it is laid out with them up to a last
gap; it is refused with the fault `f` if and only if it is laid out with some tokens up to a
string that its line does not close, and `f` is the fault of that string.  The tokens stand
for pieces of the text one behind the other. -/
theorem tokenize_exact (source : String) :
    ∃ mark body, source.toList = mark ++ body ∧
      (mark = [byteOrderMark] ∨ mark = [] ∧ source.toList.head? ≠ some byteOrderMark) ∧
      let first : Position := ⟨1, 1, (String.ofList mark).utf8ByteSize⟩
      (∀ tokens, tokenize source = .ok tokens ↔
        ∃ q gap, Laid first body tokens q gap ∧ OnlyGaps gap) ∧
      (∀ f, tokenize source = .error f ↔
        ∃ tokens q left, Laid first body tokens q left ∧ BreaksOff q left f) ∧
      ∀ tokens, tokenize source = .ok tokens → CoversInOrder source tokens := by
  obtain ⟨mark, hsource, hmark, hpos⟩ := Cursor.ofText_mark source
  refine ⟨mark, (Cursor.ofText source).rest, hsource, hmark, ?_⟩
  intro first
  have hstream : TokenStream.ofText source =
      TokenStream.ofSteps (⟨first, (Cursor.ofText source).rest⟩ : Cursor).steps := by
    rw [← show (Cursor.ofText source).position = first from hpos]
    rfl
  have hok : ∀ tokens, tokenize source = .ok tokens ↔
      ∃ q gap, Laid first (Cursor.ofText source).rest tokens q gap ∧ OnlyGaps gap := by
    intro tokens
    rw [tokenize_eq_ok_iff, hstream, TokenStream.ofSteps_eq_complete_iff]
  refine ⟨hok, ?_, ?_⟩
  · intro f
    rw [tokenize_eq_error_iff, hstream]
    simp only [TokenStream.ofSteps_eq_broken_iff]
  · intro tokens h
    obtain ⟨q, gap, hlaid, _⟩ := (hok tokens).mp h
    exact hlaid.coversInOrder hsource rfl

end HostRules
