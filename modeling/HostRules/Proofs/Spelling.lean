/-
HostRules/Proofs/Spelling.lean

How tokens are spelled.  `Spells kind value raw rest` says, without reading anything, that
the characters `raw` are a token of a kind with a value when `rest` follows them; what
follows matters for words and comments, which go on as long as they can.

Main results: what is read at the head of a text is what its characters spell
(`Lexeme.read?_describes`), and what spells a token is read as that token, whatever follows
(`Lexeme.read?_of_spells`).
-/
import HostRules.Token.Scan

namespace HostRules

/-! ### The content of quoted strings -/

/-- The characters `raw` between two quote marks stand for the text `content`: a backslash is
dropped and the character behind it kept, and no line breaks. -/
inductive QuotedText (quote : Char) : (raw content : List Char) → Prop
  | nil : QuotedText quote [] []
  | plain {c raw content} :
      c ≠ quote → c ≠ '\\' → isLineBreak c = false → QuotedText quote raw content →
        QuotedText quote (c :: raw) (c :: content)
  | escaped {c raw content} :
      isLineBreak c = false → QuotedText quote raw content →
        QuotedText quote ('\\' :: c :: raw) (c :: content)

/-- The text ends here, or its line does. -/
def EndsLine (text : List Char) : Prop := ∀ c, text.head? = some c → isLineBreak c = true

/-- The text behind an opening quote mark reaches the end of its line before a closing one;
the last character of the line can be a backslash. -/
def Unclosed (quote : Char) (text : List Char) : Prop :=
  ∃ raw content rest, QuotedText quote raw content ∧ EndsLine rest ∧
    (text = raw ++ rest ∨ text = raw ++ '\\' :: rest)

/-! ### The spelling of tokens -/

/-- Whether a character opens and closes strings. -/
def IsQuoteMark (c : Char) : Prop := c = '\'' ∨ c = '"'

/-- The characters `raw` are an unquoted word when `rest` follows them: none of them ends a
word, they do not begin as a string, a comment or an arrow does, and the word ends there. -/
structure IsWord (raw rest : List Char) : Prop where
  ne_nil : raw ≠ []
  inside : ∀ c ∈ raw, endsWord c = false
  not_quote : ∀ c, raw.head? = some c → ¬ IsQuoteMark c
  not_comment : raw.head? ≠ some '#'
  not_arrow : ¬ ['=', '>'] <+: raw
  maximal : ∀ c, rest.head? = some c → endsWord c = true

/-- The characters `raw` are a token of a kind with a value when `rest` follows them. -/
inductive Spells : (kind : TokenKind) → (value raw rest : List Char) → Prop
  | quoted {quote body content rest} :
      IsQuoteMark quote → QuotedText quote body content →
        Spells .quoted content (quote :: (body ++ [quote])) rest
  | comment {body rest} :
      (∀ c ∈ body, isLineBreak c = false) → EndsLine rest →
        Spells .comment ('#' :: body) ('#' :: body) rest
  | statementEnd {rest} : Spells .statementEnd [';'] [';'] rest
  | blockStart {rest} : Spells .blockStart ['\x7b'] ['\x7b'] rest
  | blockEnd {rest} : Spells .blockEnd ['\x7d'] ['\x7d'] rest
  | lineBreak {c rest} : isLineBreak c = true → Spells .lineBreak [c] [c] rest
  | arrow {rest} : Spells .arrow ['=', '>'] ['=', '>'] rest
  | word {raw rest} :
      IsWord raw rest → (∀ k : Keyword, String.ofList raw ≠ k.text) → Spells .word raw raw rest
  | keyword {raw rest} {k : Keyword} :
      IsWord raw rest → String.ofList raw = k.text → Spells (.keyword k) raw raw rest

variable {quote : Char} {raw content rest text value : List Char} {kind : TokenKind}

theorem EndsLine.nil : EndsLine [] := by
  intro c hc
  cases hc

theorem EndsLine.cons {c : Char} (h : isLineBreak c = true) : EndsLine (c :: rest) := by
  intro d hd
  rw [← Option.some.inj hd]
  exact h

theorem Unclosed.plain {c : Char} (hq : c ≠ quote) (hs : c ≠ '\\') (hb : isLineBreak c = false)
    (h : Unclosed quote text) : Unclosed quote (c :: text) := by
  obtain ⟨raw, content, rest, ht, hr, heq⟩ := h
  refine ⟨c :: raw, c :: content, rest, .plain hq hs hb ht, hr, ?_⟩
  rcases heq with rfl | rfl
  · exact Or.inl rfl
  · exact Or.inr rfl

theorem Unclosed.escaped {c : Char} (hb : isLineBreak c = false) (h : Unclosed quote text) :
    Unclosed quote ('\\' :: c :: text) := by
  obtain ⟨raw, content, rest, ht, hr, heq⟩ := h
  refine ⟨'\\' :: c :: raw, c :: content, rest, .escaped hb ht, hr, ?_⟩
  rcases heq with rfl | rfl
  · exact Or.inl rfl
  · exact Or.inr rfl

/-! ### Reading quoted strings -/

theorem readQuoted_quote (quote : Char) (cs : List Char) :
    readQuoted quote (quote :: cs) = ⟨true, [], [quote], cs⟩ := by
  rw [readQuoted.eq_def]
  simp

theorem readQuoted_plain {c : Char} (hc : c ≠ quote) (hs : c ≠ '\\')
    (hb : isLineBreak c = false) (cs : List Char) :
    readQuoted quote (c :: cs) =
      { readQuoted quote cs with
        content := c :: (readQuoted quote cs).content
        raw := c :: (readQuoted quote cs).raw } := by
  rw [readQuoted.eq_def]
  simp [hc, hs, hb]

theorem readQuoted_escaped {c : Char} (hq : quote ≠ '\\') (hb : isLineBreak c = false)
    (cs : List Char) :
    readQuoted quote ('\\' :: c :: cs) =
      { readQuoted quote cs with
        content := c :: (readQuoted quote cs).content
        raw := '\\' :: c :: (readQuoted quote cs).raw } := by
  rw [readQuoted.eq_def]
  simp [hq.symm, hb]

theorem readQuoted_endsLine (hb : isLineBreak quote = false) (h : EndsLine text) :
    (readQuoted quote text).closed = false := by
  cases text with
  | nil => rfl
  | cons c cs =>
    have hc : isLineBreak c = true := h c rfl
    have hcq : c ≠ quote := by
      rintro rfl
      simp [hb] at hc
    have hcs : c ≠ '\\' := by
      rintro rfl
      exact absurd hc (by decide)
    rw [readQuoted.eq_def]
    simp [hcq, hcs, hc]

theorem readQuoted_slash_endsLine (hq : quote ≠ '\\') (h : EndsLine text) :
    (readQuoted quote ('\\' :: text)).closed = false := by
  rw [readQuoted.eq_def]
  cases text with
  | nil => simp [hq.symm]
  | cons c cs =>
    have hc : isLineBreak c = true := h c rfl
    simp [hq.symm, hc]

theorem readQuoted_complete (hq : quote ≠ '\\') (h : QuotedText quote raw content) :
    readQuoted quote (raw ++ quote :: rest) = ⟨true, content, raw ++ [quote], rest⟩ := by
  induction h with
  | nil => exact readQuoted_quote quote rest
  | plain hc hs hb _ ih =>
    rw [List.cons_append, readQuoted_plain hc hs hb, ih]
    rfl
  | escaped hb _ ih =>
    rw [List.cons_append, List.cons_append, readQuoted_escaped hq hb, ih]
    rfl

/-- What reading a string finds, closed or not, is what its characters stand for. -/
theorem readQuoted_sound (quote : Char) (text : List Char) :
    if (readQuoted quote text).closed then
      ∃ raw, QuotedText quote raw (readQuoted quote text).content ∧
        (readQuoted quote text).raw = raw ++ [quote]
    else Unclosed quote text := by
  -- the cases of the reader; in 1, 3, 4 and 6 the text or its line ends before a closing mark
  fun_induction readQuoted quote text with
  | case1 => exact ⟨[], [], [], .nil, .nil, Or.inl rfl⟩
  | case2 cs => exact ⟨[], .nil, rfl⟩
  | case3 => exact ⟨[], [], [], .nil, .nil, Or.inr rfl⟩
  | case4 d ds hd => exact ⟨[], [], d :: ds, .nil, .cons hd, Or.inr rfl⟩
  | case5 d ds hd body _ ih =>
    have hd' : isLineBreak d = false := by simpa using hd
    change if body.closed then _ else _
    split
    · next hcl =>
      rw [if_pos hcl] at ih
      obtain ⟨raw, ht, hraw⟩ := ih
      exact ⟨'\\' :: d :: raw, .escaped hd' ht, congrArg ('\\' :: d :: ·) hraw⟩
    · next hcl =>
      rw [if_neg hcl] at ih
      exact ih.escaped hd'
  | case6 c cs hc hs hb => exact ⟨[], [], c :: cs, .nil, .cons hb, Or.inl rfl⟩
  | case7 c cs hc hs hb body ih =>
    have hb' : isLineBreak c = false := by simpa using hb
    change if body.closed then _ else _
    split
    · next hcl =>
      rw [if_pos hcl] at ih
      obtain ⟨raw, ht, hraw⟩ := ih
      exact ⟨c :: raw, .plain hc hs hb' ht, congrArg (c :: ·) hraw⟩
    · next hcl =>
      rw [if_neg hcl] at ih
      exact ih.plain hc hs hb'

/-- A string that its line does not close is read as an open one. -/
theorem Unclosed.not_closed (hq : quote ≠ '\\') (hb : isLineBreak quote = false)
    (h : Unclosed quote text) : (readQuoted quote text).closed = false := by
  obtain ⟨raw, content, rest, ht, hr, heq⟩ := h
  -- up to `rest` the string is read as if it were closed, so only what `rest` is like counts
  induction ht generalizing text with
  | nil =>
    rcases heq with rfl | rfl
    · exact readQuoted_endsLine hb hr
    · exact readQuoted_slash_endsLine hq hr
  | plain hc hs hb' _ ih =>
    rcases heq with rfl | rfl
    · rw [List.cons_append, readQuoted_plain hc hs hb']
      exact ih (Or.inl rfl)
    · rw [List.cons_append, readQuoted_plain hc hs hb']
      exact ih (Or.inr rfl)
  | escaped hb' _ ih =>
    rcases heq with rfl | rfl
    · rw [List.cons_append, List.cons_append, readQuoted_escaped hq hb']
      exact ih (Or.inl rfl)
    · rw [List.cons_append, List.cons_append, readQuoted_escaped hq hb']
      exact ih (Or.inr rfl)

/-! ### The first character of a token -/

theorem IsQuoteMark.ne_slash {c : Char} (h : IsQuoteMark c) : c ≠ '\\' := by
  rcases h with rfl | rfl <;> decide

theorem IsQuoteMark.not_break {c : Char} (h : IsQuoteMark c) : isLineBreak c = false := by
  rcases h with rfl | rfl <;> decide

theorem IsQuoteMark.not_gap {c : Char} (h : IsQuoteMark c) : isGap c = false := by
  rcases h with rfl | rfl <;> decide

theorem not_endsWord_iff {c : Char} :
    endsWord c = false ↔
      isGap c = false ∧ isLineBreak c = false ∧ c ≠ ';' ∧ c ≠ '\x7b' ∧ c ≠ '\x7d' := by
  simp [endsWord, and_assoc]

theorem Spells.ne_nil (h : Spells kind value raw rest) : raw ≠ [] := by
  cases h with
  | word h _ | keyword h _ => exact h.ne_nil
  | _ => simp

/-- No token begins with a space. -/
theorem Spells.not_gap (h : Spells kind value raw rest) {c : Char} (hc : raw.head? = some c) :
    isGap c = false := by
  cases h with
  | quoted hq _ =>
    rw [← Option.some.inj hc]
    exact hq.not_gap
  | lineBreak hb =>
    rw [← Option.some.inj hc]
    exact not_isGap_of_isLineBreak hb
  | word h _ | keyword h _ => exact (not_endsWord_iff.mp (h.inside c (List.mem_of_mem_head? hc))).1
  | comment _ _ | statementEnd | blockStart | blockEnd | arrow =>
    rw [← Option.some.inj hc]
    decide

/-! ### Runs of characters -/

/-- A run of characters that satisfy `p` ends where one follows that does not. -/
theorem takeWhile_append_of_ends {p : Char → Bool} (hin : ∀ c ∈ raw, p c = true)
    (hout : ∀ c, rest.head? = some c → p c = false) : (raw ++ rest).takeWhile p = raw := by
  rw [List.takeWhile_append_of_pos hin]
  cases rest with
  | nil => simp
  | cons c cs => simp [hout c rfl]

theorem dropWhile_append_of_ends {p : Char → Bool} (hin : ∀ c ∈ raw, p c = true)
    (hout : ∀ c, rest.head? = some c → p c = false) : (raw ++ rest).dropWhile p = rest := by
  rw [List.dropWhile_append_of_pos hin]
  cases rest with
  | nil => rfl
  | cons c cs => simp [hout c rfl]

/-- A text without a character is what stands before it. -/
theorem split_at_char {c : Char} (h : c ∉ raw) (hrest : ∀ d, rest.head? = some d → d = c) :
    (raw ++ rest).takeWhile (· != c) = raw ∧ (raw ++ rest).dropWhile (· != c) = rest := by
  have hin : ∀ d ∈ raw, (d != c) = true := by
    intro d hd
    have hne : d ≠ c := ne_of_mem_of_not_mem hd h
    simpa using hne
  have hout : ∀ d, rest.head? = some d → (d != c) = false := by
    intro d hd
    simp [hrest d hd]
  exact ⟨takeWhile_append_of_ends hin hout, dropWhile_append_of_ends hin hout⟩

theorem not_of_head?_dropWhile {p : Char → Bool} {c : Char}
    (h : (text.dropWhile p).head? = some c) : p c = false := by
  have hnot := List.head?_dropWhile_not p text
  rw [h] at hnot
  exact hnot

/-! ### The lexeme at the head of a text -/

theorem Keyword.ofWord?_eq_some_iff {word : String} {k : Keyword} :
    Keyword.ofWord? word = some k ↔ word = k.text := by
  constructor
  · intro h
    unfold Keyword.ofWord? at h
    have hk := List.find?_some h
    exact (eq_of_beq hk).symm
  · rintro rfl
    cases k <;> decide

namespace Lexeme

theorem wordKind_eq_keyword_iff {k : Keyword} :
    wordKind raw = .keyword k ↔ String.ofList raw = k.text := by
  rw [← Keyword.ofWord?_eq_some_iff]
  unfold wordKind
  split
  · next k' hk => simp [hk]
  · next hk => simp [hk]

theorem wordKind_eq_word (h : ∀ k : Keyword, String.ofList raw ≠ k.text) :
    wordKind raw = .word := by
  unfold wordKind
  split
  · next k hk => exact absurd (Keyword.ofWord?_eq_some_iff.mp hk) (h k)
  · rfl

/-- A word is read where no other kind of token begins. -/
theorem read?_word {c : Char} {cs : List Char} (hq : ¬ IsQuoteMark c) (hh : c ≠ '#')
    (he : endsWord c = false) (ha : c = '=' → cs.head? ≠ some '>') :
    read? (c :: cs) = some (word c cs) := by
  obtain ⟨_, hb, h1, h2, h3⟩ := not_endsWord_iff.mp he
  unfold IsQuoteMark at hq
  simp only [read?, hq, hh, h1, h2, h3, hb, if_false, Bool.false_eq_true]
  split
  · next heq =>
    split
    · next ds => exact absurd rfl (ha heq)
    · rfl
  · rfl

theorem read?_isWord (h : IsWord raw rest) :
    read? (raw ++ rest) = some ⟨.token (wordKind raw) raw, raw, rest⟩ := by
  obtain ⟨c, cs, rfl⟩ := List.exists_cons_of_ne_nil h.ne_nil
  have hc : endsWord c = false := h.inside c List.mem_cons_self
  have hin : ∀ d ∈ cs, (!endsWord d) = true := fun d hd => by
    simp [h.inside d (List.mem_cons_of_mem c hd)]
  have hout : ∀ d, rest.head? = some d → (!endsWord d) = false := fun d hd => by
    simp [h.maximal d hd]
  -- the arrow would have to lie in the word, or across its end
  have harrow : c = '=' → (cs ++ rest).head? ≠ some '>' := by
    rintro rfl hgt
    cases cs with
    | nil => exact absurd (h.maximal '>' hgt) (by decide)
    | cons d ds =>
      obtain rfl : d = '>' := Option.some.inj hgt
      exact h.not_arrow ⟨ds, rfl⟩
  rw [List.cons_append, read?_word (h.not_quote c rfl) (fun hh => h.not_comment (congrArg some hh))
    hc harrow, word, takeWhile_append_of_ends hin hout, dropWhile_append_of_ends hin hout]

/-- What spells a token is read as that token. -/
theorem read?_of_spells (h : Spells kind value raw rest) :
    read? (raw ++ rest) = some ⟨.token kind value, raw, rest⟩ := by
  cases h with
  | quoted hq ht =>
    have hread : readQuoted _ (_ ++ _ :: rest) = _ := readQuoted_complete hq.ne_slash ht
    unfold IsQuoteMark at hq
    simp [read?, hq, quotedString, hread]
  | @comment body _ hin hr =>
    have hin' : ∀ c ∈ body, (!isLineBreak c) = true := fun c hc => by simp [hin c hc]
    have hout : ∀ c, rest.head? = some c → (!isLineBreak c) = false := fun c hc => by
      simp [hr c hc]
    simp [read?, comment, takeWhile_append_of_ends hin' hout, dropWhile_append_of_ends hin' hout]
  | statementEnd | blockStart | blockEnd | arrow => rfl
  | lineBreak hb =>
    have hb' := hb
    simp only [isLineBreak, Bool.or_eq_true, beq_iff_eq] at hb'
    rcases hb' with rfl | rfl <;> rfl
  | word h hk => rw [read?_isWord h, wordKind_eq_word hk]
  | keyword h hk => rw [read?_isWord h, wordKind_eq_keyword_iff.mpr hk]

theorem spells_of_isWord (h : IsWord raw rest) : Spells (wordKind raw) raw raw rest := by
  cases hk : wordKind raw with
  | keyword k => exact .keyword h (wordKind_eq_keyword_iff.mp hk)
  | word =>
    refine .word h fun k hraw => ?_
    rw [wordKind_eq_keyword_iff.mpr hraw] at hk
    exact absurd hk nofun
  | _ =>
    unfold wordKind at hk
    split at hk <;> exact absurd hk nofun

theorem isWord_word {c : Char} {cs : List Char} (hq : ¬ IsQuoteMark c) (hh : c ≠ '#')
    (he : endsWord c = false) (ha : c = '=' → cs.head? ≠ some '>') :
    IsWord (word c cs).raw (word c cs).rest where
  ne_nil := List.cons_ne_nil _ _
  inside := by
    intro d hd
    rcases List.mem_cons.mp hd with rfl | hd
    · exact he
    · simpa using List.all_eq_true.mp List.all_takeWhile d hd
  not_quote := by
    intro d hd
    rwa [← Option.some.inj hd]
  not_comment := fun h => hh (Option.some.inj h)
  not_arrow := by
    rintro ⟨more, heq⟩
    obtain ⟨hc, htail⟩ := List.cons.inj heq
    refine ha hc.symm ?_
    -- the second character of the arrow is the first of the run behind `c`
    cases cs with
    | nil => simp at htail
    | cons d ds =>
      by_cases hd : endsWord d
      · simp [hd] at htail
      · simp only [hd, List.takeWhile_cons_of_pos, Bool.not_false] at htail
        rw [← (List.cons.inj htail).1]
        rfl
  maximal := by
    intro d hd
    simpa using not_of_head?_dropWhile hd

/-- A lexeme tells what the characters at the head of a text spell. -/
def Describes (l : Lexeme) (text : List Char) : Prop :=
  match l.meaning with
  | .token kind value => Spells kind value l.raw l.rest
  | .unterminated quote => IsQuoteMark quote ∧ ∃ cs, text = quote :: cs ∧ Unclosed quote cs

theorem quotedString_describes {c : Char} (hq : IsQuoteMark c) (cs : List Char) :
    (quotedString c cs).Describes (c :: cs) := by
  have hs := readQuoted_sound c cs
  unfold quotedString
  by_cases hcl : (readQuoted c cs).closed
  · rw [if_pos hcl] at hs
    obtain ⟨body, ht, hraw⟩ := hs
    simp only [hcl, if_true, hraw]
    exact Spells.quoted hq ht
  · rw [if_neg hcl] at hs
    simp only [hcl]
    exact ⟨hq, cs, rfl, hs⟩

theorem comment_describes (cs : List Char) : (comment '#' cs).Describes ('#' :: cs) := by
  refine Spells.comment ?_ ?_
  · intro d hd
    simpa using List.all_eq_true.mp List.all_takeWhile d hd
  · intro d hd
    simpa using not_of_head?_dropWhile hd

/-- What is read at the head of a text, no space in front, is what its characters spell. -/
theorem read?_describes {l : Lexeme} (hg : ∀ c, text.head? = some c → isGap c = false)
    (h : read? text = some l) : l.Describes text := by
  cases text with
  | nil => exact absurd h nofun
  | cons c cs =>
    have hl := Option.some.inj h
    have hgap : isGap c = false := hg c rfl
    subst hl
    clear h
    -- one case for each way a token can begin; the last ones are left with a word
    split
    · next hq => exact quotedString_describes hq cs
    next hq =>
    split
    · next hc =>
      subst hc
      exact comment_describes cs
    next hh =>
    split
    · next hc =>
      subst hc
      exact Spells.statementEnd
    next h1 =>
    split
    · next hc =>
      subst hc
      exact Spells.blockStart
    next h2 =>
    split
    · next hc =>
      subst hc
      exact Spells.blockEnd
    next h3 =>
    split
    · next hb => exact Spells.lineBreak hb
    next hb =>
    have he : endsWord c = false :=
      not_endsWord_iff.mpr ⟨hgap, by simpa using hb, h1, h2, h3⟩
    split
    · next hc =>
      split
      · subst hc
        exact Spells.arrow
      · next ha =>
        refine spells_of_isWord (isWord_word hq hh he fun _ hgt => ?_)
        obtain ⟨ds, rfl⟩ := List.head?_eq_some_iff.mp hgt
        exact ha ds rfl
    · next hc => exact spells_of_isWord (isWord_word hq hh he fun heq => absurd heq hc)

/-- An unterminated string is found exactly where a quote mark opens one. -/
theorem read?_unterminated (hq : IsQuoteMark quote) (h : Unclosed quote text) :
    ∃ raw rest, read? (quote :: text) = some ⟨.unterminated quote, raw, rest⟩ := by
  have hcl := h.not_closed hq.ne_slash hq.not_break
  unfold IsQuoteMark at hq
  exact ⟨quote :: (readQuoted quote text).raw, (readQuoted quote text).rest, by
    simp [read?, hq, quotedString, hcl]⟩

end Lexeme

end HostRules
