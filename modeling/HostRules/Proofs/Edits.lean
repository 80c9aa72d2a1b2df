/-
HostRules/Proofs/Edits.lean

Changing the layout of a text.  Line feeds become other line ends, a `;` becomes a line break,
comments and blank lines come and go: after each of these the text has other tokens, but they say
the same, so that the rule file is the same up to the places of its tokens.

Design.  What is read of a text in two parts is what is read of the parts, if the second ends the
last token of the first (`TokenStream.unplaced_ofText_append`); a token or a gap in front of a text
is read on its own (`unplaced_ofText_token`, `unplaced_ofText_gap`).  Line ends are exchanged
throughout a text, token by token along its layout (`Laid.replaceFeeds`).

Main result: `RuleFile.parse_layout`.
-/
import HostRules.Proofs.Layout
import HostRules.Regex.Standard

namespace HostRules

open Relation (ReflTransGen)

variable {tokens more a b : List Token} {t u : Token}

/-! ### Texts one behind the other -/

variable {p q : Position} {kind : TokenKind} {value raw rest text left next gap : List Char}

/-- A character that ends words ends every token but a comment. -/
theorem Spells.followed_by_end (h : Spells kind value raw rest) (hkind : kind ≠ .comment)
    (hnext : ∀ c, next.head? = some c → endsWord c = true) : Spells kind value raw next := by
  have hword : IsWord raw rest → IsWord raw next := fun hw => { hw with maximal := hnext }
  -- of all lexemes only words and comments ask what follows them
  cases h with
  | quoted hq ht => exact .quoted hq ht
  | comment => exact absurd rfl hkind
  | statementEnd => exact .statementEnd
  | blockStart => exact .blockStart
  | blockEnd => exact .blockEnd
  | lineBreak hb => exact .lineBreak hb
  | arrow => exact .arrow
  | word hw hk => exact .word (hword hw) hk
  | keyword hw hk => exact .keyword (hword hw) hk

/-- What comes behind a text whose last token is no comment begins with a character that ends
words. -/
def EndsLast (tokens : List Token) (next : List Char) : Prop :=
  (∀ c, next.head? = some c → endsWord c = true) ∧
    tokens.getLast?.map (·.kind) ≠ some .comment

theorem EndsLast.cons {c : Char} (hc : endsWord c = true)
    (hlast : tokens.getLast?.map (·.kind) ≠ some .comment) : EndsLast tokens (c :: next) := by
  refine ⟨?_, hlast⟩
  intro d hd
  rwa [← Option.some.inj hd]

theorem EndsLast.tail (h : EndsLast (t :: tokens) next) : EndsLast tokens next := by
  refine ⟨h.1, ?_⟩
  cases tokens with
  | nil => nofun
  | cons u tokens =>
    have hlast := h.2
    rwa [List.getLast?_cons_cons] at hlast

theorem EndsLast.congr (h : EndsLast a next)
    (heq : b.map Token.unplaced = a.map Token.unplaced) : EndsLast b next := by
  have hkinds : b.map (·.kind) = a.map (·.kind) := by
    have hmap := congrArg (List.map (·.kind)) heq
    rwa [List.map_map, List.map_map] at hmap
  refine ⟨h.1, ?_⟩
  rw [← List.getLast?_map, hkinds, List.getLast?_map]
  exact h.2

/-- A text is laid out before what ends its last token as it is alone, at whatever place. -/
theorem Laid.before_end (h : Laid p text tokens q left) (hnext : EndsLast tokens next)
    (p' : Position) :
    ∃ tokens' q', Laid p' (text ++ next) tokens' q' (left ++ next) ∧
      tokens'.map Token.unplaced = tokens.map Token.unplaced := by
  -- along the tokens, which move to other places: what a token is followed by matters only to the
  -- last one
  induction h generalizing p' with
  | nil => exact ⟨[], p', .nil, rfl⟩
  | @cons p gap raw rest t tokens q left hg hs _ _ hmore ih =>
    have hs' : Spells t.kind t.value.toList raw (rest ++ next) := by
      cases rest with
      | nil =>
        -- this is the last token, and `next` stands right behind it
        obtain rfl := hmore.eq_nil rfl
        have hkind : t.kind ≠ .comment := fun hc => hnext.2 (by rw [← hc]; rfl)
        exact hs.followed_by_end hkind hnext.1
      | cons d ds =>
        refine hs.followed ?_
        intro c hc
        exact Or.inl hc
    obtain ⟨t', r, hfirst, ht'⟩ := exists_laid_token p' gap hg hs'
    obtain ⟨tokens', q', hlaid, htokens⟩ := ih hnext.tail r
    refine ⟨t' :: tokens', q', ?_, ?_⟩
    · rw [List.append_assoc, List.append_assoc]
      exact hfirst.append hlaid
    · rw [List.map_cons, List.map_cons, ht', htokens]

namespace TokenStream

/-- Spaces in front of a text are passed over. -/
theorem unplaced_ofText_gap {gap : String} (h : OnlyGaps gap.toList) (b : String) :
    (ofText (gap ++ b)).unplaced = (ofText b).unplaced := by
  rw [← unplaced_ofText .start, ← unplaced_ofText .start]
  refine unplaced_ofSteps ?_
  show b.toList.dropWhile isGap = (gap ++ b).toList.dropWhile isGap
  rw [String.toList_append, List.dropWhile_append_of_pos h]

theorem unplaced_ofText_blank {blank : String} (h : OnlyGaps blank.toList) :
    (ofText blank).unplaced = ⟨[], none⟩ := by
  rw [← unplaced_ofText .start, ofSteps_of_onlyGaps h]
  rfl

/-- A token in front of a text. -/
theorem unplaced_ofText_token {raw : String} {b : String}
    (h : Spells t.kind t.value.toList raw.toList b.toList) :
    (ofText (raw ++ b)).unplaced = cons t.unplaced (ofText b).unplaced := by
  obtain ⟨t', q, hlaid, ht'⟩ := exists_laid_token .start [] nofun h
  have hsteps := hlaid.steps
  rw [← unplaced_ofText .start, String.toList_append, ← unplaced_ofText q b]
  show (ofSteps (⟨.start, [] ++ (raw.toList ++ b.toList)⟩ : Cursor).steps).unplaced = _
  rw [hsteps, ← ht']
  rfl

/-- A stream that is complete up to places is complete. -/
theorem of_unplaced {stream : TokenStream} (h : stream.unplaced = (mk tokens none).unplaced) :
    ∃ tokens', stream = ⟨tokens', none⟩ ∧
      tokens'.map Token.unplaced = tokens.map Token.unplaced := by
  obtain ⟨tokens', fault⟩ := stream
  have hfault : fault.map (·.move fun _ => .start) = none := congrArg TokenStream.fault h
  obtain rfl : fault = none := by simpa using hfault
  exact ⟨tokens', rfl, congrArg TokenStream.tokens h⟩

/-- A text that is read to its end, and one behind it that ends its last token. -/
theorem unplaced_ofText_append {a b : String} (h : ofText a = ⟨tokens, none⟩)
    (hb : EndsLast tokens b.toList) :
    (ofText (a ++ b)).unplaced = behind (tokens.map Token.unplaced) (ofText b).unplaced := by
  -- `a` is laid out from its first character on: its byte order mark is a space
  obtain ⟨tokens₁, hstream, htokens₁⟩ :=
    of_unplaced ((unplaced_ofText .start a).trans (congrArg unplaced h))
  obtain ⟨q, gap, hlaid, hgap⟩ := ofSteps_eq_complete_iff.mp hstream
  obtain ⟨tokens', q', hlaid', htokens'⟩ := hlaid.before_end (hb.congr htokens₁) .start
  -- what `a` leaves behind its last token is a gap, which `b` takes over
  have hgap' : (ofSteps (⟨q', gap ++ b.toList⟩ : Cursor).steps).unplaced = (ofText b).unplaced := by
    rw [← unplaced_ofText q' b]
    refine unplaced_ofSteps ?_
    show b.toList.dropWhile isGap = (gap ++ b.toList).dropWhile isGap
    rw [List.dropWhile_append_of_pos hgap]
  rw [← unplaced_ofText .start, String.toList_append, hlaid'.steps]
  show (behind tokens' (ofSteps (⟨q', gap ++ b.toList⟩ : Cursor).steps)).unplaced = _
  rw [unplaced_behind, hgap', htokens', htokens₁]

end TokenStream

/-! ### Line ends -/

/-- A text with another end in the place of every line feed. -/
def replaceFeeds (ending text : List Char) : List Char :=
  text.flatMap fun c => if c = '\n' then ending else [c]

/-- Characters that end a line: there are some, and each of them breaks the line. -/
def IsLineEnd (ending : List Char) : Prop := ending ≠ [] ∧ ∀ c ∈ ending, isLineBreak c = true

variable {ending : List Char} {quote : Char} {f : Fault}

theorem replaceFeeds_append (ending text more : List Char) :
    replaceFeeds ending (text ++ more) = replaceFeeds ending text ++ replaceFeeds ending more :=
  List.flatMap_append

theorem replaceFeeds_of_not_mem (h : '\n' ∉ text) : replaceFeeds ending text = text := by
  induction text with
  | nil => rfl
  | cons c cs ih =>
    obtain ⟨hc, hcs⟩ : '\n' ≠ c ∧ '\n' ∉ cs := by simpa using h
    have hcs' : replaceFeeds ending cs = cs := ih hcs
    unfold replaceFeeds at hcs' ⊢
    rw [List.flatMap_cons, hcs', if_neg (Ne.symm hc)]
    rfl

theorem not_mem_of_onlyGaps (h : OnlyGaps gap) : '\n' ∉ gap :=
  fun hmem => absurd (h '\n' hmem) (by decide)

/-- A text begins as before, or now with a line break. -/
theorem head?_replaceFeeds (h : IsLineEnd ending) {c : Char}
    (hc : (replaceFeeds ending text).head? = some c) :
    text.head? = some c ∨ isLineBreak c = true := by
  cases text with
  | nil => cases hc
  | cons d ds =>
    obtain ⟨e, es, rfl⟩ := List.exists_cons_of_ne_nil h.1
    unfold replaceFeeds at hc
    rw [List.flatMap_cons] at hc
    by_cases hd : d = '\n'
    · rw [if_pos hd] at hc
      right
      rw [← Option.some.inj hc]
      exact h.2 e List.mem_cons_self
    · rw [if_neg hd] at hc
      exact Or.inl hc

theorem spells_lineBreak {c : Char} (h : isLineBreak c = true) (rest : List Char) :
    Spells (Token.bare .lineBreak (String.singleton c)).kind
      (Token.bare .lineBreak (String.singleton c)).value.toList [c] rest := by
  have hvalue : (String.singleton c).toList = [c] := by simp
  show Spells .lineBreak (String.singleton c).toList [c] rest
  rw [hvalue]
  exact .lineBreak h

theorem visible_lineBreak {value : String}
    (h : t.unplaced = (Token.bare .lineBreak value).unplaced) :
    visible [t] = [.newline] := by
  have hkind : t.kind = .lineBreak := congrArg Token.kind h
  exact visible_separator (by rw [hkind]; rfl)

/-- A line end is a row of line breaks. -/
theorem exists_laid_breaks {c : Char} {cs : List Char}
    (h : ∀ d ∈ c :: cs, isLineBreak d = true) (hg : OnlyGaps gap) (p : Position) :
    ∃ tokens q, Laid p (gap ++ ((c :: cs) ++ rest)) tokens q rest ∧
      visible tokens = List.replicate (cs.length + 1) .newline := by
  -- one break at a time; only the first of them stands behind the gap
  induction cs generalizing c gap p with
  | nil =>
    obtain ⟨t, q, hlaid, ht⟩ := exists_laid_token p gap hg (spells_lineBreak (h c (by simp)) rest)
    exact ⟨[t], q, hlaid, visible_lineBreak ht⟩
  | cons d ds ih =>
    obtain ⟨hc, hmore⟩ := List.forall_mem_cons.mp h
    obtain ⟨t, r, hfirst, ht⟩ :=
      exists_laid_token p gap hg (spells_lineBreak hc ((d :: ds) ++ rest))
    obtain ⟨tokens, q, hlaid, htokens⟩ := ih hmore (List.forall_mem_nil _) r
    refine ⟨t :: tokens, q, hfirst.append hlaid, ?_⟩
    rw [List.length_cons, List.replicate_succ, ← htokens, ← List.singleton_append, visible_append,
      visible_lineBreak ht]
    rfl

/-- However many separators stand behind one, they are dropped. -/
theorem foldr_replicate_newline {n : Nat} (hn : n ≠ 0) (more : List Token) :
    (List.replicate n Token.newline).foldr consThin more = consThin .newline more := by
  induction n with
  | zero => exact absurd rfl hn
  | succ n ih =>
    rw [List.replicate_succ, List.foldr_cons]
    cases n with
    | zero => rfl
    | succ n => rw [ih (Nat.succ_ne_zero n), consThin_consThin rfl rfl]

/-- With other line ends a text is laid out with tokens that say the same. -/
theorem Laid.replaceFeeds (h : Laid p text tokens q left) (he : IsLineEnd ending)
    (p' : Position) :
    ∃ tokens' q',
      Laid p' (HostRules.replaceFeeds ending text) tokens' q' (HostRules.replaceFeeds ending left) ∧
        (visible tokens').foldr consThin [] = (visible tokens).foldr consThin [] := by
  -- along the tokens: a gap holds no line feed, and of the lexemes only a line break does
  induction h generalizing p' with
  | nil => exact ⟨[], p', .nil, rfl⟩
  | @cons p gap raw rest t tokens q left hg hs _ _ hmore ih =>
    rw [replaceFeeds_append, replaceFeeds_append, replaceFeeds_of_not_mem (not_mem_of_onlyGaps hg)]
    by_cases hfeed : '\n' ∈ raw
    · -- the token is the line feed, and it becomes a row of line breaks
      obtain ⟨rfl, hkind⟩ := hs.eq_of_break hfeed rfl
      obtain ⟨c, cs, rfl⟩ := List.exists_cons_of_ne_nil he.1
      obtain ⟨breaks, r, hfirst, hbreaks⟩ := exists_laid_breaks he.2 hg p'
      obtain ⟨tokens', q', hlaid, htokens⟩ := ih r
      have hrow : HostRules.replaceFeeds (c :: cs) ['\n'] = c :: cs := by
        simp [HostRules.replaceFeeds]
      have hfeed' : visible [t] = [.newline] := visible_separator (by rw [hkind]; rfl)
      rw [hrow]
      refine ⟨breaks ++ tokens', q', hfirst.append hlaid, ?_⟩
      rw [visible_append, hbreaks, List.foldr_append, htokens,
        foldr_replicate_newline (Nat.succ_ne_zero _), ← List.singleton_append, visible_append,
        hfeed']
      rfl
    · rw [replaceFeeds_of_not_mem hfeed]
      -- the token stays, and what follows it begins as before or breaks the line
      have hs' : Spells t.kind t.value.toList raw (HostRules.replaceFeeds ending rest) :=
        hs.followed fun c hc => head?_replaceFeeds he hc
      obtain ⟨t', r, hfirst, ht'⟩ := exists_laid_token p' gap hg hs'
      obtain ⟨tokens', q', hlaid, htokens⟩ := ih r
      refine ⟨t' :: tokens', q', hfirst.append hlaid, ?_⟩
      have hsame : visible [t'] = visible [t] := visible_congr (by simp [ht'])
      rw [← List.singleton_append, visible_append, hsame, List.foldr_append, htokens,
        ← List.foldr_append, ← visible_append]
      rfl

theorem Unclosed.replaceFeeds (h : Unclosed quote text) (he : IsLineEnd ending) :
    Unclosed quote (HostRules.replaceFeeds ending text) := by
  obtain ⟨raw, content, rest, ht, hends, heq⟩ := h
  -- the string breaks off before the line feed, so only what stands behind it changes
  have hraw : '\n' ∉ raw := fun hmem => absurd (ht.not_break '\n' hmem) (by decide)
  have hends' : EndsLine (HostRules.replaceFeeds ending rest) := by
    intro c hc
    rcases head?_replaceFeeds he hc with hsame | hbreak
    · exact hends c hsame
    · exact hbreak
  refine ⟨raw, content, HostRules.replaceFeeds ending rest, ht, hends', ?_⟩
  rcases heq with rfl | rfl
  · left
    rw [replaceFeeds_append, replaceFeeds_of_not_mem hraw]
  · right
    rw [replaceFeeds_append, replaceFeeds_of_not_mem hraw]
    rfl

theorem BreaksOff.replaceFeeds (h : BreaksOff q left f) (he : IsLineEnd ending) (q' : Position) :
    ∃ f', BreaksOff q' (HostRules.replaceFeeds ending left) f' := by
  obtain ⟨gap, quote, rest, rfl, hg, hq, hopen, -⟩ := h
  have hquote : quote ≠ '\n' := by
    rintro rfl
    exact absurd hq.not_break (by decide)
  refine ⟨_, gap, quote, HostRules.replaceFeeds ending rest, ?_, hg, hq, hopen.replaceFeeds he, rfl⟩
  rw [replaceFeeds_append, replaceFeeds_of_not_mem (not_mem_of_onlyGaps hg)]
  show gap ++ ((if quote = '\n' then ending else [quote]) ++ _) = _
  rw [if_neg hquote]
  rfl

section

variable [Regex.Dialect]

/-- With other line ends a text is read as tokens that say the same, or breaks off as before. -/
theorem TokenStream.reading_replaceFeeds (he : IsLineEnd ending) (text : List Char) :
    reading (ofSteps (⟨.start, replaceFeeds ending text⟩ : Cursor).steps) =
      reading (ofSteps (⟨.start, text⟩ : Cursor).steps) := by
  obtain ⟨q, left, hlaid, hend⟩ := laid_ofSteps ⟨.start, text⟩
  obtain ⟨tokens', q', hlaid', htokens'⟩ := hlaid.replaceFeeds he .start
  cases hstream : ofSteps (⟨.start, text⟩ : Cursor).steps with
  | mk tokens fault =>
    rw [hstream] at htokens' hend
    cases fault with
    | none =>
      have hgap : OnlyGaps (replaceFeeds ending left) := by
        rw [replaceFeeds_of_not_mem (not_mem_of_onlyGaps hend)]
        exact hend
      rw [ofSteps_eq_complete_iff.mpr ⟨q', _, hlaid', hgap⟩]
      exact reading_congr (congrArg dropSeparator htokens') rfl
    | some f =>
      obtain ⟨f', hbreaks⟩ := hend.replaceFeeds he q'
      rw [ofSteps_eq_broken_iff.mpr ⟨q', _, hlaid', hbreaks⟩]
      exact reading_congr (congrArg dropSeparator htokens') rfl

/-- A text with another end in the place of every line feed. -/
def withLineEnds (ending source : String) : String :=
  String.ofList (replaceFeeds ending.toList source.toList)

/-! ### Edits of a text -/

namespace RuleFile

/-- The rule file that a text is read as, at no place in particular, if it is read. -/
def reading (source : String) : Option RuleFile :=
  (parse source).toOption.map (·.mapTokens Token.unplaced)

theorem reading_withLineEnds {ending : String} (h : IsLineEnd ending.toList) (source : String) :
    reading (withLineEnds ending source) = reading source := by
  -- a byte order mark reads as a space, so both texts may be read from their first character
  have hplace : ∀ source : String, reading source =
      (TokenStream.ofSteps (⟨.start, source.toList⟩ : Cursor).steps).reading :=
    fun source => TokenStream.reading_of_unplaced (TokenStream.unplaced_ofText .start source).symm
  rw [hplace, hplace source, withLineEnds, String.toList_ofList]
  exact TokenStream.reading_replaceFeeds h _

variable {a a' : String} {tokens tokens' : List Token}

theorem reading_semicolon (h : TokenStream.ofText a = ⟨tokens, none⟩)
    (hlast : tokens.getLast?.map (·.kind) ≠ some .comment) (b : String) :
    reading (a ++ ";" ++ b) = reading (a ++ "\n" ++ b) := by
  have hend : EndsLast tokens (";" ++ b).toList := by
    rw [String.toList_append]
    exact .cons (by decide) hlast
  have hsemicolon : (TokenStream.ofText (a ++ ";" ++ b)).unplaced =
      .behind (tokens.map Token.unplaced)
        (.cons (.bare .statementEnd ";") (TokenStream.ofText b).unplaced) := by
    have hspells : Spells (Token.bare .statementEnd ";").kind
        (Token.bare .statementEnd ";").value.toList ";".toList b.toList := .statementEnd
    rw [String.append_assoc, TokenStream.unplaced_ofText_append h hend,
      TokenStream.unplaced_ofText_token hspells]
    rfl
  refine TokenStream.reading_eq_of_reaches ?_ ?_
  · rw [hsemicolon, TokenStream.unplaced_ofText_joined h b]
    show ReflTransGen Thins (visible (_ ++ _ :: _)) (visible (_ ++ [_] ++ _))
    rw [visible_cut rfl, List.append_assoc, List.singleton_append, visible_cut rfl]
  · rw [hsemicolon, TokenStream.unplaced_ofText_joined h b]
    rfl

/-- Lines that say the same can stand for each other before other lines. -/
theorem reading_lines (h : TokenStream.ofText a = ⟨tokens, none⟩)
    (h' : TokenStream.ofText a' = ⟨tokens', none⟩)
    (hsteps : ∀ more, ReflTransGen Thins (visible tokens' ++ .newline :: more)
      (visible tokens ++ .newline :: more)) (b : String) :
    reading (a' ++ "\n" ++ b) = reading (a ++ "\n" ++ b) := by
  refine TokenStream.reading_eq_of_reaches ?_ ?_
  · rw [TokenStream.unplaced_ofText_joined h b, TokenStream.unplaced_ofText_joined h' b]
    show ReflTransGen Thins (visible (_ ++ [_] ++ _)) (visible (_ ++ [_] ++ _))
    rw [List.append_assoc, List.append_assoc, List.singleton_append, visible_cut rfl,
      visible_cut rfl, visible_unplaced, visible_unplaced]
    exact hsteps _
  · rw [TokenStream.unplaced_ofText_joined h b, TokenStream.unplaced_ofText_joined h' b]
    rfl

omit [Regex.Dialect] in
/-- A comment at the end of a line adds nothing to what is visible. -/
theorem exists_commented (h : TokenStream.ofText a = ⟨tokens, none⟩)
    (hlast : tokens.getLast?.map (·.kind) ≠ some .comment) {comment : String}
    (hcomment : ∀ c ∈ comment.toList, isLineBreak c = false) :
    ∃ tokens', TokenStream.ofText (a ++ " #" ++ comment) = ⟨tokens', none⟩ ∧
      visible tokens' = visible tokens := by
  let t := Token.bare .comment ("#" ++ comment)
  have hend : EndsLast tokens (" " ++ ("#" ++ comment ++ "")).toList := by
    rw [String.toList_append]
    exact .cons (by decide) hlast
  have hspace : OnlyGaps " ".toList := List.forall_mem_singleton.mpr (by decide)
  have hempty : OnlyGaps "".toList := List.forall_mem_nil _
  have hspells : Spells t.kind t.value.toList ("#" ++ comment).toList "".toList := by
    show Spells .comment ("#" ++ comment).toList ("#" ++ comment).toList []
    rw [String.toList_append]
    exact .comment hcomment .nil
  -- a space, the comment, and nothing behind it
  have hsplit : a ++ " #" ++ comment = a ++ (" " ++ ("#" ++ comment ++ "")) := by
    simp [String.append_assoc, ← String.toList_inj]
  have hstream : (TokenStream.ofText (a ++ " #" ++ comment)).unplaced =
      (TokenStream.mk (tokens ++ [t]) none).unplaced := by
    rw [hsplit, TokenStream.unplaced_ofText_append h hend,
      TokenStream.unplaced_ofText_gap hspace, TokenStream.unplaced_ofText_token hspells,
      TokenStream.unplaced_ofText_blank hempty]
    show TokenStream.mk (tokens.map Token.unplaced ++ [t.unplaced]) none =
      ⟨(tokens ++ [t]).map Token.unplaced, none⟩
    rw [List.map_append]
    rfl
  obtain ⟨tokens', hstream', htokens'⟩ := TokenStream.of_unplaced hstream
  refine ⟨tokens', hstream', ?_⟩
  rw [visible_congr htokens', visible_append, visible_comment rfl, List.append_nil]

omit [Regex.Dialect] in
/-- A blank line says what a line break says. -/
theorem exists_blank (h : TokenStream.ofText a = ⟨tokens, none⟩) {blank : String}
    (hblank : OnlyGaps blank.toList) :
    ∃ tokens', TokenStream.ofText (a ++ "\n" ++ blank) = ⟨tokens', none⟩ ∧
      visible tokens' = visible tokens ++ [.newline] := by
  have hstream : (TokenStream.ofText (a ++ "\n" ++ blank)).unplaced =
      (TokenStream.mk (tokens ++ [Token.newline]) none).unplaced := by
    rw [TokenStream.unplaced_ofText_joined h, TokenStream.unplaced_ofText_blank hblank]
    show TokenStream.mk (tokens.map Token.unplaced ++ [Token.newline] ++ []) none =
      ⟨(tokens ++ [Token.newline]).map Token.unplaced, none⟩
    rw [List.append_nil, List.map_append]
    rfl
  obtain ⟨tokens', hstream', htokens'⟩ := TokenStream.of_unplaced hstream
  refine ⟨tokens', hstream', ?_⟩
  rw [visible_congr htokens', visible_cut rfl]
  rfl

theorem reading_of_visible (h : TokenStream.ofText a = ⟨tokens, none⟩)
    (h' : TokenStream.ofText a' = ⟨tokens', none⟩)
    (hsteps : ReflTransGen Thins (visible tokens') (visible tokens)) :
    reading a' = reading a := by
  show (TokenStream.ofText a').reading = (TokenStream.ofText a).reading
  rw [h, h']
  exact TokenStream.reading_congr (thin_eq_of_reaches hsteps) rfl

theorem reading_blank_first {blank : String} (hblank : OnlyGaps blank.toList) (b : String) :
    reading (blank ++ "\n" ++ b) = reading b := by
  have hspells : Spells Token.newline.kind Token.newline.value.toList "\n".toList b.toList :=
    spells_newline b.toList
  have hstream : (TokenStream.ofText (blank ++ "\n" ++ b)).unplaced =
      .cons .newline (TokenStream.ofText b).unplaced := by
    rw [String.append_assoc, TokenStream.unplaced_ofText_gap hblank,
      TokenStream.unplaced_ofText_token hspells]
    rfl
  refine TokenStream.reading_eq_of_reaches ?_ ?_
  · rw [hstream]
    show ReflTransGen Thins (visible ([] ++ _ :: _)) _
    rw [visible_cut rfl]
    exact .single (.first rfl)
  · rw [hstream]
    rfl

/-- **Layout does not change meaning.**  If two texts have their tokens, and the tokens are the
same without layout, the second is read when the first is, as the same rule file up to the places
of its tokens.  In particular a text says the same with other line ends; with a line break in the
place of a `;` token; with or without a comment at the end of a line; and with or without blank
lines, in front, between lines and at the end. -/
theorem parse_layout (a b : String) :
    (∀ tokens tokens', tokenize a = .ok tokens → tokenize b = .ok tokens' →
      withoutLayout tokens = withoutLayout tokens' → ∀ f, parse a = .ok f →
        ∃ g, parse b = .ok g ∧ g.mapTokens Token.unplaced = f.mapTokens Token.unplaced) ∧
    reading (withLineEnds "\r\n" a) = reading a ∧ reading (withLineEnds "\r" a) = reading a ∧
    (∀ tokens, tokenize a = .ok tokens → tokens.getLast?.map (·.kind) ≠ some .comment →
      reading (a ++ ";" ++ b) = reading (a ++ "\n" ++ b) ∧
      ∀ comment : String, (∀ c ∈ comment.toList, isLineBreak c = false) →
        reading (a ++ " #" ++ comment ++ "\n" ++ b) = reading (a ++ "\n" ++ b) ∧
        reading (a ++ " #" ++ comment) = reading a) ∧
    (∀ blank : String, OnlyGaps blank.toList →
      reading (blank ++ "\n" ++ b) = reading b ∧
      ∀ tokens, tokenize a = .ok tokens →
        reading (a ++ "\n" ++ blank ++ "\n" ++ b) = reading (a ++ "\n" ++ b) ∧
        reading (a ++ "\n" ++ blank) = reading a) := by
  refine ⟨?_, ?_, ?_, ?_, ?_⟩
  · intro tokens tokens' ha hb hlayout f hf
    have hsame : reading a = reading b := by
      show (TokenStream.ofText a).reading = (TokenStream.ofText b).reading
      rw [tokenize_eq_ok_iff.mp ha, tokenize_eq_ok_iff.mp hb]
      exact TokenStream.reading_congr hlayout rfl
    unfold reading at hsame
    rw [hf] at hsame
    obtain ⟨g, hg, hfile⟩ := Option.map_eq_some_iff.mp hsame.symm
    cases hparse : parse b with
    | error fault =>
      rw [hparse] at hg
      cases hg
    | ok g' =>
      rw [hparse] at hg
      cases hg
      exact ⟨g, rfl, hfile⟩
  · exact reading_withLineEnds ⟨by decide, by simp [isLineBreak]⟩ a
  · exact reading_withLineEnds ⟨by decide, by simp [isLineBreak]⟩ a
  · intro tokens htokens hlast
    have h := tokenize_eq_ok_iff.mp htokens
    refine ⟨reading_semicolon h hlast b, ?_⟩
    intro comment hcomment
    obtain ⟨tokens', h', hvisible⟩ := exists_commented h hlast hcomment
    refine ⟨reading_lines h h' (fun more => ?_) b, reading_of_visible h h' ?_⟩
    · rw [hvisible]
    · rw [hvisible]
  · intro blank hblank
    refine ⟨reading_blank_first hblank b, ?_⟩
    intro tokens htokens
    have h := tokenize_eq_ok_iff.mp htokens
    obtain ⟨tokens', h', hvisible⟩ := exists_blank h hblank
    refine ⟨reading_lines h h' (fun more => ?_) b, reading_of_visible h h' ?_⟩
    · rw [hvisible, List.append_assoc]
      exact .single (.behind rfl rfl)
    · rw [hvisible]
      exact .single (.last rfl)

end RuleFile

end

namespace RuleFile

/-- A block with separators wherever they say nothing, and with comments. -/
def looseSample : String := "\n;a => \x7b # head\n\r\n log x ;; # tail\r\x7d ;"

/-- The same block without any. -/
def tightSample : String := "a =>\x7blog x\x7d"

theorem parse_layout_looseSample :
    ∃ f g, parse looseSample = .ok f ∧ parse tightSample = .ok g ∧
      g.mapTokens Token.unplaced = f.mapTokens Token.unplaced := by
  have hloose : tokenize looseSample = .ok (TokenStream.ofText looseSample).tokens :=
    tokenize_eq_ok_iff.mpr (by decide +kernel)
  have htight : tokenize tightSample = .ok (TokenStream.ofText tightSample).tokens :=
    tokenize_eq_ok_iff.mpr (by decide +kernel)
  have hlayout : withoutLayout (TokenStream.ofText looseSample).tokens =
      withoutLayout (TokenStream.ofText tightSample).tokens := by decide +kernel
  obtain ⟨f, hf, -⟩ : ∃ f, parse looseSample = .ok f ∧ True := exists_parse (by decide +kernel)
  obtain ⟨g, hg, hsame⟩ :=
    (parse_layout looseSample tightSample).1 _ _ hloose htight hlayout f hf
  exact ⟨f, g, hf, hg, hsame⟩

end RuleFile

end HostRules
