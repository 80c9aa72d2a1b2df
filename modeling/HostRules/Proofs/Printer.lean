/-
HostRules/Proofs/Printer.lean

The canonical text of a rule file.  Every statement has a line of its own, a block one for
its header and one for its closing brace; reserved words, `~`, `=>` and braces are written
bare, and every text of the rule file stands between double quotes, with a backslash before
each backslash and each double quote.

Main result: the tokens of the canonical text are the ones it was written from, at other
places (`ofText_print`).  The printer goes through lists of tokens, so that this module knows
characters and no statements, and the next one statements and no characters.
-/
import HostRules.Proofs.Places
import HostRules.Proofs.Tiling
import HostRules.Proofs.WellFormed

namespace HostRules

/-! ### Writing tokens -/

/-- A character between double quotes. -/
def escapedChar (c : Char) : List Char := if c = '"' ∨ c = '\\' then ['\\', c] else [c]

namespace Token

/-- A token at no place in particular. -/
def unplaced (t : Token) : Token := t.move fun _ => .start

/-- A token that stands for itself, at no place in particular. -/
def bare (kind : TokenKind) (value : String) : Token := ⟨kind, value, ⟨.start, .start⟩⟩

/-- A quoted string, at no place in particular. -/
def string (value : String) : Token := bare .quoted value

/-- A reserved word. -/
def reserved (k : Keyword) : Token := bare (.keyword k) k.text

/-- The token that ends a line. -/
def newline : Token := bare .lineBreak "\n"

/-- The brace that opens a block. -/
def openBrace : Token := bare .blockStart "\x7b"

/-- The brace that closes a block. -/
def closeBrace : Token := bare .blockEnd "\x7d"

/-- The arrow of a rule. -/
def arrow : Token := bare .arrow "=>"

/-- The sign before a regular expression. -/
def tilde : Token := bare .word "~"

/-- The characters of a token: a quoted string has its quote marks, and all others are written
as they are. -/
def write (t : Token) : List Char :=
  if t.kind = .quoted then '"' :: (t.value.toList.flatMap escapedChar ++ ['"'])
  else t.value.toList

end Token

/-- A line of tokens with single spaces between them. -/
def writeLine : List Token → List Char
  | [] => ['\n']
  | t :: more => t.write ++ (more.flatMap (fun t => ' ' :: t.write) ++ ['\n'])

/-- The tokens of some lines. -/
def lineTokens (lines : List (List Token)) : List Token := lines.flatMap (· ++ [.newline])

/-! ### Tokens that can be written -/

/-- A token that is read back where its characters are written before `rest`, if `rest` ends
words. -/
def Token.Writable (t : Token) : Prop :=
  ∀ rest, (∀ c, rest.head? = some c → endsWord c = true) →
    Spells t.kind t.value.toList t.write rest

theorem quotedText_escaped {text : List Char} (h : ∀ c ∈ text, isLineBreak c = false) :
    QuotedText '"' (text.flatMap escapedChar) text := by
  induction text with
  | nil => exact .nil
  | cons c cs ih =>
    have hc : isLineBreak c = false := h c List.mem_cons_self
    have hcs : QuotedText '"' (cs.flatMap escapedChar) cs :=
      ih fun d hd => h d (List.mem_cons_of_mem c hd)
    rw [List.flatMap_cons, escapedChar]
    -- exactly the characters that mean something in a string have a backslash before them
    by_cases hesc : c = '"' ∨ c = '\\'
    · rw [if_pos hesc]
      exact .escaped hc hcs
    · rw [if_neg hesc]
      exact .plain (fun hq => hesc (Or.inl hq)) (fun hs => hesc (Or.inr hs)) hc hcs

/-- That no character ends a word, in a form that can be computed. -/
theorem not_endsWord_of_all {raw : List Char} (h : raw.all (!endsWord ·) = true) :
    ∀ c ∈ raw, endsWord c = false := by
  intro c hc
  have hc' : (!endsWord c) = true := List.all_eq_true.mp h c hc
  exact Bool.not_eq_true' _ ▸ hc'

namespace Token

theorem writable_string {text : String} (h : Unbroken text) : (string text).Writable := by
  intro rest _
  exact .quoted (Or.inr rfl) (quotedText_escaped h)

theorem isWord_of_keyword (k : Keyword) {rest : List Char}
    (hr : ∀ c, rest.head? = some c → endsWord c = true) : IsWord k.text.toList rest where
  ne_nil := by cases k <;> decide
  inside := not_endsWord_of_all (by cases k <;> decide)
  not_quote := by
    intro c hc
    have hc' : c ≠ '\'' ∧ c ≠ '"' := by
      cases k <;> (rw [← Option.some.inj hc]; decide)
    exact fun h => h.elim hc'.1 hc'.2
  not_comment := by cases k <;> decide
  not_arrow := by cases k <;> decide
  maximal := hr

theorem writable_reserved (k : Keyword) : (reserved k).Writable := by
  intro rest hr
  exact .keyword (isWord_of_keyword k hr) String.ofList_toList

theorem writable_tilde : tilde.Writable := by
  intro rest hr
  -- a word by itself, and none of the keywords
  refine .word ⟨by decide, not_endsWord_of_all (by decide), ?_, by decide, by decide, hr⟩ ?_
  · intro c hc
    rw [← Option.some.inj hc]
    exact fun h => h.elim (by decide) (by decide)
  · intro k
    cases k <;> decide

theorem writable_arrow : arrow.Writable := fun _ _ => .arrow

theorem writable_openBrace : openBrace.Writable := fun _ _ => .blockStart

theorem writable_closeBrace : closeBrace.Writable := fun _ _ => .blockEnd

theorem writable_strings {texts : List String} (h : ∀ text ∈ texts, Unbroken text) :
    ∀ t ∈ texts.map string, t.Writable := by
  intro t ht
  obtain ⟨text, htext, rfl⟩ := List.mem_map.mp ht
  exact writable_string (h text htext)

theorem writable_values {tokens : List Token} (h : ∀ t ∈ tokens, Operand t.value) :
    ∀ t ∈ tokens.map (string ·.value), t.Writable := by
  intro t ht
  obtain ⟨t', ht', rfl⟩ := List.mem_map.mp ht
  exact writable_string (h t' ht').1

end Token

theorem Value.WellFormed.operands {value : Value Token} (h : value.WellFormed) :
    ∀ t ∈ value.items, Operand t.value := by
  cases value with
  | scalar t =>
    intro t' ht'
    rw [List.mem_singleton.mp ht']
    exact h
  | list ts => exact h.2

/-- A line that can be written: it has tokens, and each of them can be written. -/
def WritableLine (line : List Token) : Prop := line ≠ [] ∧ ∀ t ∈ line, t.Writable

theorem writableLine_header {t : Token} {more : List Token} (ht : t.Writable)
    (h : ∀ t ∈ more, t.Writable) : WritableLine (t :: (more ++ [.openBrace])) := by
  refine ⟨List.cons_ne_nil _ _, ?_⟩
  intro t' ht'
  simp only [List.mem_cons, List.mem_append, List.not_mem_nil, or_false] at ht'
  rcases ht' with rfl | ht' | rfl
  · exact ht
  · exact h t' ht'
  · exact Token.writable_openBrace

theorem writableLine_cons {t : Token} {more : List Token} (ht : t.Writable)
    (h : ∀ t ∈ more, t.Writable) : WritableLine (t :: more) :=
  ⟨List.cons_ne_nil _ _, List.forall_mem_cons.mpr ⟨ht, h⟩⟩

theorem writableLine_closeBrace : WritableLine [.closeBrace] :=
  writableLine_cons Token.writable_closeBrace nofun

theorem writable_block {header : List Token} {inner : List (List Token)}
    (hh : WritableLine header) (hi : ∀ line ∈ inner, WritableLine line) :
    ∀ line ∈ header :: (inner ++ [[.closeBrace]]), WritableLine line := by
  intro line hline
  simp only [List.mem_cons, List.mem_append, List.not_mem_nil, or_false] at hline
  rcases hline with rfl | hline | rfl
  · exact hh
  · exact hi line hline
  · exact writableLine_closeBrace

/-! ### Reading the tokens back -/

variable {rest : List Char}

theorem exists_laid_token (p : Position) (gap : List Char) {t : Token} {raw : List Char}
    (hg : OnlyGaps gap) (hs : Spells t.kind t.value.toList raw rest) :
    ∃ t' q, Laid p (gap ++ (raw ++ rest)) [t'] q rest ∧ t'.unplaced = t.unplaced := by
  let start := p.advance gap (raw ++ rest)
  let t' : Token := { t with span := ⟨start, start.advance raw rest⟩ }
  exact ⟨t', t'.span.stop, .cons hg hs rfl rfl .nil, rfl⟩

theorem spells_newline (rest : List Char) :
    Spells Token.newline.kind Token.newline.value.toList ['\n'] rest := .lineBreak rfl

/-- The words of a line behind its first one, and what follows the line. -/
def wordsBefore (line : List Token) (rest : List Char) : List Char :=
  line.flatMap (fun t => ' ' :: t.write) ++ '\n' :: rest

/-- Behind a word stands a space or the line break. -/
theorem endsWord_wordsBefore (line : List Token) (rest : List Char) :
    ∀ c, (wordsBefore line rest).head? = some c → endsWord c = true := by
  intro c hc
  cases line <;> (rw [← Option.some.inj hc]; decide)

theorem exists_laid_words {line : List Token} (h : ∀ t ∈ line, t.Writable) (p : Position) :
    ∃ tokens q, Laid p (wordsBefore line rest) tokens q ('\n' :: rest) ∧
      tokens.map Token.unplaced = line.map Token.unplaced := by
  induction line generalizing p with
  | nil => exact ⟨[], p, .nil, rfl⟩
  | cons t line ih =>
    have hspace : OnlyGaps [' '] := by
      intro c hc
      rw [List.mem_singleton.mp hc]
      decide
    obtain ⟨ht, hline⟩ := List.forall_mem_cons.mp h
    obtain ⟨t', q, hlaid, ht'⟩ :=
      exists_laid_token p [' '] hspace (ht _ (endsWord_wordsBefore line rest))
    obtain ⟨tokens, r, hlaid', htokens⟩ := ih hline q
    refine ⟨t' :: tokens, r, ?_, by rw [List.map_cons, ht', htokens, List.map_cons]⟩
    simpa [wordsBefore] using hlaid.append hlaid'

theorem exists_laid_line {line : List Token} (h : WritableLine line) (p : Position) :
    ∃ tokens q, Laid p (writeLine line ++ rest) tokens q rest ∧
      tokens.map Token.unplaced = (line ++ [Token.newline]).map Token.unplaced := by
  obtain ⟨t, more, rfl⟩ := List.exists_cons_of_ne_nil h.1
  obtain ⟨ht, hmore⟩ := List.forall_mem_cons.mp h.2
  obtain ⟨t', q, hlaid, ht'⟩ :=
    exists_laid_token p [] nofun (ht _ (endsWord_wordsBefore more rest))
  obtain ⟨tokens, r, hlaid', htokens⟩ := exists_laid_words hmore q
  obtain ⟨last, r', hlaid'', hlast⟩ := exists_laid_token r [] nofun (spells_newline rest)
  -- the first token has nothing before it, the others a space each, the line break nothing
  refine ⟨t' :: (tokens ++ [last]), r', ?_, ?_⟩
  · simpa [writeLine, wordsBefore] using hlaid.append (hlaid'.append hlaid'')
  · simp [ht', htokens, hlast]

theorem exists_laid_lines {lines : List (List Token)} (h : ∀ line ∈ lines, WritableLine line)
    (p : Position) :
    ∃ tokens q, Laid p (lines.flatMap writeLine) tokens q [] ∧
      tokens.map Token.unplaced = (lineTokens lines).map Token.unplaced := by
  induction lines generalizing p with
  | nil => exact ⟨[], p, .nil, rfl⟩
  | cons line lines ih =>
    obtain ⟨hline, hlines⟩ := List.forall_mem_cons.mp h
    obtain ⟨tokens, q, hlaid, htokens⟩ := exists_laid_line hline p
    obtain ⟨tokens', r, hlaid', htokens'⟩ := ih hlines q
    refine ⟨tokens ++ tokens', r, hlaid.append hlaid', ?_⟩
    rw [List.map_append, htokens, htokens']
    simp [lineTokens]

/-- The canonical text begins with a token, or is empty. -/
theorem cursor_print {lines : List (List Token)} (h : ∀ line ∈ lines, WritableLine line) :
    Cursor.ofText (String.ofList (lines.flatMap writeLine)) =
      ⟨.start, lines.flatMap writeLine⟩ := by
  unfold Cursor.ofText
  rw [String.toList_ofList]
  cases htext : lines.flatMap writeLine with
  | nil => rfl
  | cons c cs =>
    refine if_neg fun hc => ?_
    -- the byte order mark is a space between tokens, and no token begins with a space
    cases lines with
    | nil => exact absurd htext nofun
    | cons line lines =>
      obtain ⟨t, more, rfl⟩ := List.exists_cons_of_ne_nil (h line List.mem_cons_self).1
      have hspell := (h _ List.mem_cons_self).2 t List.mem_cons_self _
        (endsWord_wordsBefore more [])
      obtain ⟨d, ds, hwrite⟩ := List.exists_cons_of_ne_nil hspell.ne_nil
      have hgap : isGap d = false := hspell.not_gap (by rw [hwrite]; rfl)
      have hcd : d = c := by
        simp only [List.flatMap_cons, writeLine, hwrite, List.cons_append] at htext
        exact (List.cons.inj htext).1
      rw [hcd, hc] at hgap
      exact absurd hgap (by decide)

variable [Regex.Dialect]

/-! ### Writing statements -/

/-- The tokens behind `location`. -/
def LocationPattern.tokens : LocationPattern → List Token
  | path text => [.string text]
  | regex r => [.tilde, .string r.source]

mutual

/-- The lines of a statement. -/
def Statement.lines : Statement → List (List Token)
  | .domain names body =>
    (.reserved .domain :: (names.map Token.string ++ [.openBrace])) ::
      (bodyLines body ++ [[.closeBrace]])
  | .location pattern body =>
    (.reserved .location :: (pattern.tokens ++ [.openBrace])) ::
      (bodyLines body ++ [[.closeBrace]])
  | .call directive arguments => [.string directive :: arguments.map (.string ·.value)]
  | .declare name value =>
    [.reserved .set :: .string name :: value.items.map (.string ·.value)]
  | .rule source target => [[.string source.value, .arrow, .string target.value]]

/-- The lines of a body. -/
def Statement.bodyLines : List Statement → List (List Token)
  | [] => []
  | s :: more => s.lines ++ bodyLines more

end

namespace RuleFile

/-- The canonical text of a rule file. -/
def print (f : RuleFile) : String := String.ofList ((Statement.bodyLines f.body).flatMap writeLine)

/-- The tokens of the canonical text, at no place in particular. -/
def tokens (f : RuleFile) : List Token := lineTokens (Statement.bodyLines f.body)

end RuleFile

/-! ### Statements that can be written -/

theorem LocationPattern.WellFormed.writable {pattern : LocationPattern} (h : pattern.WellFormed) :
    ∀ t ∈ pattern.tokens, t.Writable := by
  cases pattern with
  | path text => simpa [tokens] using Token.writable_string h.2
  | regex r => simpa [tokens] using ⟨Token.writable_tilde, Token.writable_string h.2⟩

mutual

theorem Statement.writable_lines :
    ∀ (s : Statement) {scope : BlockKind}, s.WellFormed scope →
      ∀ line ∈ s.lines, WritableLine line
  | .domain names body, scope, h => by
    obtain ⟨_, _, hnames, hbody⟩ := h
    exact writable_block
      (writableLine_header (Token.writable_reserved .domain)
        (Token.writable_strings fun name hname => (hnames name hname).unbroken))
      (writable_bodyLines body hbody)
  | .location pattern body, scope, h => by
    obtain ⟨_, hpattern, hbody⟩ := h
    exact writable_block
      (writableLine_header (Token.writable_reserved .location) hpattern.writable)
      (writable_bodyLines body hbody)
  | .call directive arguments, scope, h => by
    obtain ⟨_, hdirective, harguments⟩ := h
    intro line hline
    rw [List.mem_singleton.mp hline]
    exact writableLine_cons (Token.writable_string hdirective.1)
      (Token.writable_values harguments)
  | .declare name value, scope, h => by
    obtain ⟨hname, hvalue⟩ := h
    intro line hline
    rw [List.mem_singleton.mp hline]
    exact writableLine_cons (Token.writable_reserved .set)
      (List.forall_mem_cons.mpr
        ⟨Token.writable_string hname.1, Token.writable_values hvalue.operands⟩)
  | .rule source target, scope, h => by
    obtain ⟨hsource, htarget⟩ := h
    intro line hline
    rw [List.mem_singleton.mp hline]
    refine writableLine_cons (Token.writable_string hsource) ?_
    simpa using ⟨Token.writable_arrow, Token.writable_string htarget⟩

theorem Statement.writable_bodyLines :
    ∀ (body : List Statement) {scope : BlockKind}, BodyWellFormed scope body →
      ∀ line ∈ bodyLines body, WritableLine line
  | [], scope, _ => nofun
  | s :: more, scope, h => by
    intro line hline
    rcases List.mem_append.mp hline with hline | hline
    · exact writable_lines s h.1 line hline
    · exact writable_bodyLines more h.2 line hline

end

/-! ### The canonical text -/

/-- The tokens of the canonical text are the ones it was written from, at other places. -/
theorem ofText_print {f : RuleFile} (h : f.WellFormed) :
    ∃ tokens, TokenStream.ofText f.print = ⟨tokens, none⟩ ∧
      tokens.map Token.unplaced = f.tokens.map Token.unplaced := by
  have hlines := Statement.writable_bodyLines f.body h
  obtain ⟨tokens, q, hlaid, htokens⟩ := exists_laid_lines hlines .start
  refine ⟨tokens, ?_, htokens⟩
  rw [TokenStream.ofText, RuleFile.print, cursor_print hlines]
  exact TokenStream.ofSteps_eq_complete_iff.mpr ⟨q, [], hlaid, nofun⟩

end HostRules
