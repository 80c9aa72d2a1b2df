/-
HostRules/Proofs/Streams.lean

The tokens of two texts with a line feed between them.  A line feed ends every token that does
not end before it, and it is a token of its own.  So a text that ends with one is laid out in
the same way whatever comes behind it (`Laid.extend`), and a text before one is laid out as it
is alone, up to places (`Laid.before_break`).

Main results: a fault before the line feed stays the first one (`TokenStream.ofText_broken`),
the tokens before it stay the first ones (`TokenStream.ofText_complete`), and up to places the
joined text has the tokens of the two texts (`TokenStream.unplaced_ofText_joined`).
-/
import HostRules.Proofs.Printer

namespace HostRules

variable {p q : Position} {text left raw rest more : List Char} {tokens : List Token}
variable {kind : TokenKind} {value : List Char} {t : Token} {f : Fault} {quote : Char}

/-! ### Line breaks in tokens -/

/-- A text is empty or its last character is a line feed. -/
def EndsWithFeed (text : List Char) : Prop := ∀ c, text.getLast? = some c → c = '\n'

theorem EndsWithFeed.of_append (h : EndsWithFeed (left ++ rest)) : EndsWithFeed rest := by
  intro c hc
  apply h c
  rw [List.getLast?_append, hc, Option.some_or]

theorem EndsWithFeed.mem (h : EndsWithFeed text) (hne : text ≠ []) : '\n' ∈ text := by
  have hlast := List.getLast?_eq_some_getLast hne
  rw [← h _ hlast]
  exact List.mem_of_getLast? hlast

theorem QuotedText.not_break {content : List Char} (h : QuotedText quote raw content) :
    ∀ c ∈ raw, isLineBreak c = false := by
  induction h with
  | nil => simp
  | plain _ _ hb _ ih => simpa [hb] using ih
  | escaped hb _ ih =>
    have hslash : isLineBreak '\\' = false := by decide
    simpa [hb, hslash] using ih

/-- A token that holds a line break is nothing else. -/
theorem Spells.eq_of_break (h : Spells kind value raw rest) {c : Char} (hc : c ∈ raw)
    (hb : isLineBreak c = true) : raw = [c] ∧ kind = .lineBreak := by
  cases h with
  | lineBreak _ => exact ⟨by rw [List.mem_singleton.mp hc], rfl⟩
  | quoted hq ht =>
    have hbody := ht.not_break c
    have hmark := hq.not_break
    simp only [List.mem_cons, List.mem_append, List.not_mem_nil, or_false] at hc
    rcases hc with rfl | hc | rfl <;> simp_all
  | comment hbody _ =>
    rcases List.mem_cons.mp hc with rfl | hc
    · exact absurd hb (by decide)
    · simp [hbody c hc] at hb
  | word h _ | keyword h _ =>
    have hin := (not_endsWord_iff.mp (h.inside c hc)).2.1
    simp [hin] at hb
  | statementEnd | blockStart | blockEnd =>
    rw [List.mem_singleton.mp hc] at hb
    exact absurd hb (by decide)
  | arrow =>
    simp only [List.mem_cons, List.not_mem_nil, or_false] at hc
    rcases hc with rfl | rfl <;> exact absurd hb (by decide)

/-- But for line breaks, the text of a token is a piece of one line. -/
theorem Spells.raw_not_break (h : Spells kind value raw rest) (hk : kind ≠ .lineBreak) :
    ∀ c ∈ raw, isLineBreak c = false := by
  intro c hc
  cases hb : isLineBreak c with
  | false => rfl
  | true => exact absurd (h.eq_of_break hc hb).2 hk

/-! ### What follows a token -/

/-- Of what follows a token only the first character counts, and a line break there ends every
token. -/
theorem Spells.followed (h : Spells kind value raw rest)
    (hf : ∀ c, more.head? = some c → rest.head? = some c ∨ isLineBreak c = true) :
    Spells kind value raw more := by
  have hends : ∀ c, isLineBreak c = true → endsWord c = true := by
    intro c hc
    simp [endsWord, hc]
  have hword : IsWord raw rest → IsWord raw more := by
    intro hw
    refine { hw with maximal := ?_ }
    intro c hc
    rcases hf c hc with hr | hb
    · exact hw.maximal c hr
    · exact hends c hb
  cases h with
  | quoted hq ht => exact .quoted hq ht
  | comment hbody hr =>
    refine .comment hbody ?_
    intro c hc
    rcases hf c hc with hr' | hb
    · exact hr c hr'
    · exact hb
  | statementEnd => exact .statementEnd
  | blockStart => exact .blockStart
  | blockEnd => exact .blockEnd
  | lineBreak hb => exact .lineBreak hb
  | arrow => exact .arrow
  | word hw hk => exact .word (hword hw) hk
  | keyword hw hk => exact .keyword (hword hw) hk

/-- A line break behind a text ends its last token. -/
theorem Spells.before_break (h : Spells kind value raw rest) (hmore : EndsLine more) :
    Spells kind value raw (rest ++ more) := by
  refine h.followed ?_
  intro c hc
  cases rest with
  | nil => exact Or.inr (hmore c hc)
  | cons d ds => exact Or.inl hc

theorem Spells.head?_append (h : Spells kind value raw rest) (more : List Char) :
    (raw ++ (rest ++ more)).head? = (raw ++ rest).head? := by
  obtain ⟨c, cs, rfl⟩ := List.exists_cons_of_ne_nil h.ne_nil
  rfl

theorem Position.advance_congr (h : more.head? = rest.head?) (p : Position) (taken : List Char) :
    p.advance taken more = p.advance taken rest := by
  induction taken generalizing p with
  | nil => rfl
  | cons c cs ih => rw [advance, advance, h, ih]

/-- A token of a text that ends with a line feed does not see what comes behind the text. -/
theorem Spells.extend (h : Spells kind value raw rest) (hend : EndsWithFeed (raw ++ rest))
    (more : List Char) : Spells kind value raw (rest ++ more) ∧
      ∀ p : Position, p.advance raw (rest ++ more) = p.advance raw rest := by
  cases rest with
  | cons c cs =>
    have hhead : (c :: cs ++ more).head? = (c :: cs).head? := rfl
    refine ⟨h.followed ?_, fun p => Position.advance_congr hhead p raw⟩
    intro d hd
    exact Or.inl hd
  | nil =>
    -- the token holds the line feed, so it is the line feed
    rw [List.append_nil] at hend
    obtain ⟨rfl, rfl⟩ := h.eq_of_break (hend.mem h.ne_nil) rfl
    cases h
    exact ⟨.lineBreak rfl, fun p => rfl⟩

/-! ### Texts that go on -/

theorem Laid.endsWithFeed (h : Laid p text tokens q left) (hend : EndsWithFeed text) :
    EndsWithFeed left := by
  induction h with
  | nil => exact hend
  | cons _ _ _ _ _ ih => exact ih hend.of_append.of_append

/-- A text that ends with a line feed is laid out in the same way when more comes behind it. -/
theorem Laid.extend (h : Laid p text tokens q left) (hend : EndsWithFeed text)
    (more : List Char) : Laid p (text ++ more) tokens q (left ++ more) := by
  induction h with
  | nil => exact .nil
  | @cons p gap raw rest t tokens q left hg hs hstart hstop _ ih =>
    obtain ⟨hs', hadvance⟩ := hs.extend hend.of_append more
    rw [List.append_assoc, List.append_assoc]
    refine .cons hg hs' ?_ ?_ (ih hend.of_append.of_append)
    · rw [hstart, Position.advance_congr (hs.head?_append more)]
    · rw [hstop, hadvance]

/-- A string that its line does not close stays open when more comes behind the line. -/
theorem Unclosed.append (h : Unclosed quote text) (hfeed : '\n' ∈ text) (more : List Char) :
    Unclosed quote (text ++ more) := by
  obtain ⟨raw, content, tail, ht, htail, heq⟩ := h
  have hraw : '\n' ∉ raw := by
    intro hmem
    exact absurd (ht.not_break '\n' hmem) (by decide)
  -- the string goes on to the end of its line, which is the line feed and not the end of the text
  have hne : tail ≠ [] := by
    rintro rfl
    rcases heq with rfl | rfl
    · exact hraw (by simpa using hfeed)
    · exact hraw (by simpa using hfeed)
  have htail' : EndsLine (tail ++ more) := by
    obtain ⟨c, cs, rfl⟩ := List.exists_cons_of_ne_nil hne
    exact htail
  refine ⟨raw, content, tail ++ more, ht, htail', ?_⟩
  rcases heq with rfl | rfl
  · left; simp
  · right; simp

theorem BreaksOff.extend (h : BreaksOff q left f) (hend : EndsWithFeed left)
    (more : List Char) : BreaksOff q (left ++ more) f := by
  obtain ⟨gap, quote, rest, rfl, hg, hq, hopen, rfl⟩ := h
  have hfeed : '\n' ∈ rest := by
    have hmem := hend.of_append.mem (List.cons_ne_nil quote rest)
    refine (List.mem_cons.mp hmem).resolve_left ?_
    rintro rfl
    exact absurd hq.not_break (by decide)
  have hhead : (quote :: (rest ++ more)).head? = (quote :: rest).head? := rfl
  refine ⟨gap, quote, rest ++ more, by simp, hg, hq, hopen.append hfeed more, ?_⟩
  rw [Position.advance_congr hhead]

theorem Laid.eq_nil (h : Laid p text tokens q left) (htext : text = []) : tokens = [] := by
  cases h with
  | nil => rfl
  | cons _ hs => exact absurd htext (by simp [hs.ne_nil])

/-- The last token of a text that ends with a line feed is a line break. -/
theorem Laid.last_lineBreak (h : Laid p text tokens q left) (hleft : left = [])
    (hend : EndsWithFeed text) (hne : text ≠ []) :
    ∃ front t, tokens = front ++ [t] ∧ t.kind = .lineBreak := by
  induction h with
  | nil => exact absurd hleft hne
  | @cons p gap raw rest t tokens q left hg hs _ _ htokens ih =>
    by_cases hrest : rest = []
    · have hraw : EndsWithFeed raw := by
        have hend' := hend.of_append
        rwa [hrest, List.append_nil] at hend'
      obtain ⟨-, hkind⟩ := hs.eq_of_break (hraw.mem hs.ne_nil) rfl
      obtain rfl := htokens.eq_nil hrest
      exact ⟨[], t, rfl, hkind⟩
    · obtain ⟨front, last, rfl, hkind⟩ := ih hleft hend.of_append.of_append hrest
      exact ⟨t :: front, last, rfl, hkind⟩

/-- A text is laid out before a line break as it is alone, at whatever place. -/
theorem Laid.before_break (h : Laid p text tokens q left) (hmore : EndsLine more) (p' : Position) :
    ∃ tokens' q', Laid p' (text ++ more) tokens' q' (left ++ more) ∧
      tokens'.map Token.unplaced = tokens.map Token.unplaced := by
  induction h generalizing p' with
  | nil => exact ⟨[], p', .nil, rfl⟩
  | @cons p gap raw rest t tokens q left hg hs _ _ _ ih =>
    obtain ⟨t', r, hfirst, ht'⟩ := exists_laid_token p' gap hg (hs.before_break hmore)
    obtain ⟨tokens', q', hlaid, htokens⟩ := ih r
    refine ⟨t' :: tokens', q', ?_, ?_⟩
    · rw [List.append_assoc, List.append_assoc]
      exact hfirst.append hlaid
    · rw [List.map_cons, List.map_cons, ht', htokens]

/-! ### Token streams of joined texts -/

/-- A stream with its tokens and its fault at no place in particular. -/
def TokenStream.unplaced (s : TokenStream) : TokenStream := s.move fun _ => .start

/-- A cursor goes on over the text that comes behind its own. -/
theorem Cursor.ofText_append {a b : String} (h : a = "" → b.toList.head? ≠ some byteOrderMark) :
    ofText (a ++ b) = ⟨(ofText a).position, (ofText a).rest ++ b.toList⟩ := by
  unfold ofText
  rw [String.toList_append]
  cases ha : a.toList with
  | nil =>
    have hempty : a = "" := String.toList_eq_nil_iff.mp ha
    cases hb : b.toList with
    | nil => rfl
    | cons c cs =>
      have hc : c ≠ byteOrderMark := by
        rintro rfl
        exact h hempty (by rw [hb]; rfl)
      simp [hc]
  | cons c cs =>
    by_cases hc : c = byteOrderMark <;> simp [hc]

/-- What a step finds depends neither on the place nor on the spaces in front. -/
theorem Cursor.step_congr {c c' : Cursor} (h : c.rest.dropWhile isGap = c'.rest.dropWhile isGap) :
    match c.step with
    | .finished _ => ∃ after', c'.step = .finished after'
    | .token t after => ∃ t' after', c'.step = .token t' after' ∧ t'.unplaced = t.unplaced ∧
        after'.rest = after.rest
    | .fault f _ => ∃ f' after', c'.step = .fault f' after' ∧ f'.cause = f.cause := by
  have hskip : c'.skipGap.rest = c.skipGap.rest := h.symm
  unfold Cursor.step
  rw [hskip]
  cases Lexeme.read? c.skipGap.rest with
  | none => exact ⟨_, rfl⟩
  | some l =>
    obtain ⟨meaning, raw, rest⟩ := l
    cases meaning with
    | token kind value => exact ⟨_, _, rfl, rfl, rfl⟩
    | unterminated quote => exact ⟨_, _, rfl, rfl⟩

/-- What is read depends neither on the place nor on the spaces in front. -/
theorem TokenStream.unplaced_ofSteps {c c' : Cursor}
    (h : c.rest.dropWhile isGap = c'.rest.dropWhile isGap) :
    (ofSteps c'.steps).unplaced = (ofSteps c.steps).unplaced := by
  induction c using Cursor.steps.induct generalizing c' with
  | case1 c after hstep =>
    have hfound := Cursor.step_congr h
    rw [hstep] at hfound
    obtain ⟨after', hstep'⟩ := hfound
    rw [Cursor.steps_of_finished hstep, Cursor.steps_of_finished hstep']
    rfl
  | case2 c t after hstep ih =>
    have hfound := Cursor.step_congr h
    rw [hstep] at hfound
    obtain ⟨t', after', hstep', ht, hrest⟩ := hfound
    have hmore : (ofSteps after'.steps).unplaced = (ofSteps after.steps).unplaced := by
      refine ih ?_
      rw [hrest]
    rw [Cursor.steps_of_token hstep, Cursor.steps_of_token hstep']
    show cons t'.unplaced (ofSteps after'.steps).unplaced =
      cons t.unplaced (ofSteps after.steps).unplaced
    rw [ht, hmore]
  | case3 c f after hstep _ =>
    have hfound := Cursor.step_congr h
    rw [hstep] at hfound
    obtain ⟨f', after', hstep', hcause⟩ := hfound
    rw [Cursor.steps_of_fault hstep, Cursor.steps_of_fault hstep']
    show (⟨[], some ⟨f'.cause, .start⟩⟩ : TokenStream) = ⟨[], some ⟨f.cause, .start⟩⟩
    rw [hcause]

/-- A stream with tokens in front. -/
def TokenStream.behind (front : List Token) (s : TokenStream) : TokenStream :=
  ⟨front ++ s.tokens, s.fault⟩

theorem endsWithFeed_append_feed (text : List Char) : EndsWithFeed (text ++ ['\n']) := by
  intro c hc
  simpa using hc.symm

theorem Cursor.rest_ofText_feed (a : String) :
    (ofText (a ++ "\n")).rest = (ofText a).rest ++ ['\n'] := by
  rw [ofText_append fun _ => by decide]
  rfl

/-- A text that ends with a line feed has its tokens whatever comes behind it. -/
theorem Cursor.ofText_behind_feed (a b : String) :
    ofText (a ++ "\n" ++ b) =
      ⟨(ofText (a ++ "\n")).position, (ofText (a ++ "\n")).rest ++ b.toList⟩ := by
  apply ofText_append
  intro h
  have hlist := congrArg String.toList h
  rw [String.toList_append] at hlist
  exact absurd hlist (by simp)

theorem Cursor.endsWithFeed_ofText (a : String) :
    EndsWithFeed (ofText (a ++ "\n")).rest := by
  rw [rest_ofText_feed]
  exact endsWithFeed_append_feed _

namespace TokenStream

theorem ofText_eq (text : String) :
    ofText text =
      ofSteps (⟨(Cursor.ofText text).position, (Cursor.ofText text).rest⟩ : Cursor).steps := rfl

/-- A fault before a line feed is the fault of all texts that go on behind it. -/
theorem ofText_broken {a : String} (h : ofText (a ++ "\n") = ⟨tokens, some f⟩) (b : String) :
    ofText (a ++ "\n" ++ b) = ⟨tokens, some f⟩ := by
  rw [ofText_eq] at h
  obtain ⟨q, left, hlaid, hbreaks⟩ := ofSteps_eq_broken_iff.mp h
  have hend := Cursor.endsWithFeed_ofText a
  rw [ofText, Cursor.ofText_behind_feed]
  exact ofSteps_eq_broken_iff.mpr ⟨q, left ++ b.toList, hlaid.extend hend b.toList,
    hbreaks.extend (hlaid.endsWithFeed hend) b.toList⟩

/-- The tokens of a text that ends with a line feed, the last of them a line break, are the
first tokens of all texts that go on behind it. -/
theorem ofText_complete {a : String} (h : ofText (a ++ "\n") = ⟨tokens, none⟩) (b : String) :
    ∃ front t second, tokens = front ++ [t] ∧ t.kind = .lineBreak ∧
      ofText (a ++ "\n" ++ b) = behind (front ++ [t]) second := by
  rw [ofText_eq] at h
  obtain ⟨q, left, hlaid, hgaps⟩ := ofSteps_eq_complete_iff.mp h
  have hend := Cursor.endsWithFeed_ofText a
  -- a line feed is no space, so nothing is left behind the last token
  have hleft : left = [] := by
    refine Decidable.byContradiction fun hne => ?_
    have hgap := hgaps '\n' ((hlaid.endsWithFeed hend).mem hne)
    exact absurd hgap (by decide)
  have hne : (Cursor.ofText (a ++ "\n")).rest ≠ [] := by
    rw [Cursor.rest_ofText_feed]
    simp
  obtain ⟨front, t, rfl, ht⟩ := hlaid.last_lineBreak hleft hend hne
  refine ⟨front, t, ofSteps (⟨q, left ++ b.toList⟩ : Cursor).steps, rfl, ht, ?_⟩
  rw [ofText, Cursor.ofText_behind_feed]
  exact (hlaid.extend hend b.toList).steps

/-- Reading behind the byte order mark is reading it as a space. -/
theorem unplaced_ofText (p : Position) (b : String) :
    (ofSteps (⟨p, b.toList⟩ : Cursor).steps).unplaced = (ofText b).unplaced := by
  obtain ⟨mark, hsplit, hmark, -⟩ := Cursor.ofText_mark b
  refine unplaced_ofSteps ?_
  show (Cursor.ofText b).rest.dropWhile isGap = b.toList.dropWhile isGap
  rw [hsplit]
  rcases hmark with rfl | ⟨rfl, -⟩
  · rfl
  · rfl

theorem unplaced_behind (front : List Token) (s : TokenStream) :
    (behind front s).unplaced = behind (front.map Token.unplaced) s.unplaced := by
  show (⟨(front ++ s.tokens).map _, _⟩ : TokenStream) = ⟨front.map _ ++ s.tokens.map _, _⟩
  rw [List.map_append]
  rfl

/-- A text that is read to its end and one behind it: the tokens of the first, the line break
between them, and what the second is read as. -/
theorem unplaced_ofText_joined {a : String} (h : ofText a = ⟨tokens, none⟩) (b : String) :
    (ofText (a ++ "\n" ++ b)).unplaced =
      behind (tokens.map Token.unplaced ++ [Token.newline]) (ofText b).unplaced := by
  rw [ofText_eq] at h
  obtain ⟨q, gap, hlaid, hgap⟩ := ofSteps_eq_complete_iff.mp h
  have hmore : EndsLine ('\n' :: b.toList) := EndsLine.cons rfl
  obtain ⟨tokens', q', hlaid', htokens⟩ :=
    hlaid.before_break hmore (Cursor.ofText (a ++ "\n")).position
  obtain ⟨t, r, hlast, ht⟩ := exists_laid_token q' gap hgap (spells_newline b.toList)
  have hsteps := (hlaid'.append hlast).steps
  have hcursor : Cursor.ofText (a ++ "\n" ++ b) =
      ⟨(Cursor.ofText (a ++ "\n")).position, (Cursor.ofText a).rest ++ '\n' :: b.toList⟩ := by
    rw [Cursor.ofText_behind_feed, Cursor.rest_ofText_feed, List.append_assoc]
    rfl
  have hsplit : ofText (a ++ "\n" ++ b) =
      behind (tokens' ++ [t]) (ofSteps (⟨r, b.toList⟩ : Cursor).steps) := by
    rw [ofText, hcursor, hsteps]
    rfl
  rw [hsplit, unplaced_behind, unplaced_ofText, List.map_append, htokens, List.map_singleton, ht]
  rfl

end TokenStream

end HostRules
