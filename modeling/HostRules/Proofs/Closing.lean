/-
HostRules/Proofs/Closing.lean

The end of a text closes the blocks that are still open, as braces on a line behind it would; and
nothing else is forgiven.  `openCount` counts the opening braces of some tokens less the closing
ones.

    parse s = f,  k blocks open   →   parse (s ++ "\n" ++ k braces) = f,  one more is refused

Design.  While a file is read, `openCount` is the number of open blocks (`openCount_of_readTokens`),
and a sound state has as many of them as the kind of the innermost says (`Sound.depth`).  A line
break reads the last statement as the end of the text does, and from there each brace closes a block
as the end does (`readRest_closers`).  The tokens of the text stay where they are when a line feed
comes behind it, but for a last CR, which then leaves the break to the line feed
(`Laid.before_feed`); no statement holds that token.

Main result: `parse_closed`.
-/
import HostRules.Proofs.Coordinates
import HostRules.Proofs.Layout
import HostRules.Proofs.Parsed
import HostRules.Regex.Standard

namespace HostRules

variable {tokens front more : List Token} {t : Token}

/-! ### Counting braces -/

/-- The opening braces among some tokens less the closing ones. -/
def openCount (tokens : List Token) : Int :=
  tokens.countP (·.kind == .blockStart) - tokens.countP (·.kind == .blockEnd)

theorem BlockKind.depth_le (kind : BlockKind) : kind.depth ≤ 2 := by cases kind <;> decide

/-- The complete runs of the first tokens are the first complete runs of all of them. -/
theorem Runs.complete_prefix (front more : List Token) :
    (ofTokens front).complete <+: (ofTokens (front ++ more)).complete := by
  induction front with
  | nil => exact List.nil_prefix
  | cons t front ih =>
    show (Runs.cons t (ofTokens front)).complete <+:
      (Runs.cons t (ofTokens (front ++ more))).complete
    unfold Runs.cons
    split
    · exact List.prefix_cons_inj _ |>.mpr ih
    · -- `t` goes to the first run, which may be the unfinished one of the front
      obtain ⟨runs, hruns⟩ := ih
      rw [← hruns]
      cases (ofTokens front).complete with
      | nil => exact List.nil_prefix
      | cons run first => exact List.prefix_append _ _

/-! ### The tokens before a line feed -/

/-- A walk that breaks no line does not see what comes behind it. -/
theorem Position.advance_of_unbroken {taken : List Char}
    (h : ∀ c ∈ taken, isLineBreak c = false) (p : Position) (rest rest' : List Char) :
    p.advance taken rest = p.advance taken rest' := by
  induction taken generalizing p with
  | nil => rfl
  | cons c cs ih =>
    obtain ⟨hc, hcs⟩ := List.forall_mem_cons.mp h
    have hbreak : ∀ next, breaksLine c next = false := by
      intro next
      have hc' : c ≠ '\r' ∧ c ≠ '\n' := by simpa [isLineBreak] using hc
      simp [breaksLine, hc']
    rw [advance, advance, ih hcs]
    congr 1
    simp [step, hbreak]

/-- Only a line break at the end of a text can see what comes behind the text. -/
theorem Spells.advance_append {kind : TokenKind} {value raw rest : List Char}
    (h : Spells kind value raw rest) (hinside : rest ≠ [] ∨ kind ≠ .lineBreak) (p : Position)
    (after : List Char) : p.advance raw (rest ++ after) = p.advance raw rest := by
  rcases hinside with hne | hkind
  · obtain ⟨c, cs, rfl⟩ := List.exists_cons_of_ne_nil hne
    have hhead : (c :: cs ++ after).head? = (c :: cs).head? := rfl
    exact Position.advance_congr hhead p raw
  · exact Position.advance_of_unbroken (h.raw_not_break hkind) p _ _

section Laid

variable {p q : Position} {text left : List Char}

/-- A layout walks over the text that it lays out. -/
theorem Laid.exists_taken (h : Laid p text tokens q left) :
    ∃ taken, text = taken ++ left ∧ q = p.advance taken left := by
  induction h with
  | nil => exact ⟨[], rfl, rfl⟩
  | @cons p gap raw rest t tokens q left _ _ hstart hstop _ ih =>
    obtain ⟨taken, rfl, rfl⟩ := ih
    refine ⟨gap ++ (raw ++ taken), by simp, ?_⟩
    rw [Position.advance_append, Position.advance_append, List.append_assoc, ← hstart, ← hstop]

/-- A text is laid out before a line feed as it is alone, at the same places; only the end of a
last line break can be another one. -/
theorem Laid.before_feed (h : Laid p text tokens q left) {after : List Char}
    (hafter : EndsLine after) :
    ∃ tokens' q', Laid p (text ++ after) tokens' q' (left ++ after) ∧
      tokens'.map Token.uniform = tokens.map Token.uniform := by
  induction h with
  | nil => exact ⟨[], _, .nil, rfl⟩
  | @cons p gap raw rest t tokens q left hg hs hstart hstop hmore ih =>
    have hs' := hs.before_break hafter
    have hstart' : t.span.start = p.advance gap (raw ++ (rest ++ after)) := by
      rw [hstart, Position.advance_congr (hs.head?_append after)]
    rw [List.append_assoc, List.append_assoc]
    -- a CR at the end of the text is one break with an LF behind it: its token may end elsewhere,
    -- but not begin elsewhere
    by_cases hlast : rest = [] ∧ t.kind = .lineBreak
    · obtain ⟨rfl, hkind⟩ := hlast
      obtain rfl := hmore.eq_nil rfl
      obtain ⟨taken, htaken, -⟩ := hmore.exists_taken
      obtain rfl : left = [] := (List.append_eq_nil_iff.mp htaken.symm).2
      obtain ⟨kind, value, start, stop⟩ := t
      obtain rfl : kind = .lineBreak := hkind
      let stop' := start.advance raw ([] ++ after)
      exact ⟨[⟨.lineBreak, value, start, stop'⟩], stop', .cons hg hs' hstart' rfl .nil, rfl⟩
    · have hstop' : t.span.stop = t.span.start.advance raw (rest ++ after) := by
        rw [hs.advance_append (Decidable.not_and_iff_not_or_not.mp hlast), hstop]
      obtain ⟨tokens', q', hlaid, htokens⟩ := ih
      refine ⟨t :: tokens', q', .cons hg hs' hstart' hstop' hlaid, ?_⟩
      rw [List.map_cons, List.map_cons, htokens]

theorem exists_laid_closer (p : Position) (after : List Char) :
    ∃ brace q, Laid p ('\x7d' :: after) [brace] q after ∧ brace.kind = .blockEnd ∧
      brace.span.start = p := by
  let brace : Token := { Token.closeBrace with span := ⟨p, p.advance ['\x7d'] after⟩ }
  have hs : Spells Token.closeBrace.kind Token.closeBrace.value.toList ['\x7d'] after := .blockEnd
  have hlaid : Laid p ([] ++ (['\x7d'] ++ after)) [brace] brace.span.stop after :=
    .cons (List.forall_mem_nil _) hs rfl rfl .nil
  exact ⟨brace, brace.span.stop, hlaid, rfl, rfl⟩

/-- Closing braces in a row are tokens, one behind the other. -/
theorem exists_laid_closers (p : Position) (k : Nat) (after : List Char) :
    ∃ braces q, Laid p (List.replicate k '\x7d' ++ after) braces q after ∧
      braces.length = k ∧ ∀ t ∈ braces, t.kind = .blockEnd := by
  induction k generalizing p with
  | zero => exact ⟨[], p, .nil, rfl, List.forall_mem_nil _⟩
  | succ k ih =>
    obtain ⟨brace, next, hfirst, hkind, -⟩ :=
      exists_laid_closer p (List.replicate k '\x7d' ++ after)
    obtain ⟨braces, q, hlaid, hlength, hkinds⟩ := ih next
    exact ⟨brace :: braces, q, hfirst.append hlaid, congrArg (· + 1) hlength,
      List.forall_mem_cons.mpr ⟨hkind, hkinds⟩⟩

end Laid

theorem withoutComments_uniform (tokens : List Token) :
    withoutComments (tokens.map Token.uniform) = (withoutComments tokens).map Token.uniform := by
  have hkind : ∀ t : Token, (t.uniform.kind != .comment) = (t.kind != .comment) := by
    intro ⟨kind, value, span⟩
    cases kind <;> rfl
  unfold withoutComments
  rw [List.filter_map]
  exact congrArg _ (List.filter_congr fun t _ => hkind t)

/-! ### Texts with braces behind them -/

/-- A text with closing braces on a line behind it. -/
def closedBy (source : String) (k : Nat) : String :=
  source ++ "\n" ++ String.ofList (List.replicate k '\x7d')

theorem Cursor.ofText_closedBy (source : String) (k : Nat) :
    ofText (closedBy source k) =
      ⟨(ofText source).position, (ofText source).rest ++ '\n' :: List.replicate k '\x7d'⟩ := by
  have hline : ("\n" ++ String.ofList (List.replicate k '\x7d')).toList =
      '\n' :: List.replicate k '\x7d' := by simp
  rw [closedBy, String.append_assoc, ofText_append, hline]
  intro _
  rw [hline]
  exact fun h => absurd (Option.some.inj h) (by decide)

/-- The tokens of a text, a line break and a row of closing braces lay out the text with these
braces on a line behind it. -/
theorem exists_laid_closed {source : String} (h : TokenStream.ofText source = ⟨tokens, none⟩)
    (k : Nat) (after : List Char) :
    ∃ tokens' t braces q,
      Laid (Cursor.ofText source).position
        ((Cursor.ofText source).rest ++ '\n' :: (List.replicate k '\x7d' ++ after))
        (tokens' ++ t :: braces) q after ∧
      tokens'.map Token.uniform = tokens.map Token.uniform ∧ t.kind.separates = true ∧
      braces.length = k ∧ ∀ t ∈ braces, t.kind = .blockEnd := by
  rw [TokenStream.ofText_eq] at h
  obtain ⟨q, gap, hlaid, hgap⟩ := TokenStream.ofSteps_eq_complete_iff.mp h
  let line := '\n' :: (List.replicate k '\x7d' ++ after)
  obtain ⟨tokens', q₁, hlaid', htokens⟩ := hlaid.before_feed (EndsLine.cons rfl : EndsLine line)
  obtain ⟨t, q₂, hbreak, ht⟩ := exists_laid_token q₁ gap hgap (spells_newline _)
  obtain ⟨braces, q₃, hclosers, hlength, hkinds⟩ := exists_laid_closers q₂ k after
  have hkind : t.kind = .lineBreak := congrArg Token.kind ht
  refine ⟨tokens', t, braces, q₃, ?_, htokens, by rw [hkind]; rfl, hlength, hkinds⟩
  exact hlaid'.append (hbreak.append hclosers)

section

variable [Regex.Dialect] {s : ReadState}

/-! ### Open blocks -/

/-- A block stands one level further in than the block around it. -/
theorem Header.Fits.depth {parent : BlockKind} {header : Header} (h : header.Fits parent) :
    header.kind.depth = parent.depth + 1 := by
  cases header with
  | domain names =>
    obtain ⟨rfl, -⟩ := h
    rfl
  | location pattern =>
    obtain ⟨rfl, -⟩ := h
    rfl

namespace ReadState

/-- What can be read of some tokens can be read of the first of them. -/
theorem exists_readTokens_prefix {s' : ReadState} (h : s.readTokens tokens = .ok s')
    (hfront : front <+: tokens) : ∃ s₁, s.readTokens front = .ok s₁ := by
  obtain ⟨more, rfl⟩ := hfront
  obtain ⟨runs, hruns⟩ := Runs.complete_prefix front more
  unfold readTokens at h
  rw [← hruns, List.foldlM_append] at h
  obtain ⟨s₁, hfold, -⟩ := ok_of_bind h
  exact ⟨s₁, hfold⟩

/-- The open blocks are those that were opened and not closed. -/
theorem openCount_of_readTokens (h : readTokens {} tokens = .ok s) :
    openCount tokens = s.blocks.length := by
  -- braces end statements, so all of them end complete runs
  have hdepth := depth_foldlM h
  rw [Runs.countP_complete .blockStart rfl, Runs.countP_complete .blockEnd rfl] at hdepth
  simp only [List.length_nil, Nat.zero_add] at hdepth
  unfold openCount
  omega

theorem Sound.depth (h : s.Sound) : s.blocks.length = s.scope.depth := by
  induction h with
  | outermost _ => rfl
  | @inside b outer body _ hfits _ ih =>
    show outer.length + 1 = b.header.kind.depth
    rw [hfits.depth]
    exact congrArg (· + 1) ih

/-- Tokens without a line break inside are read with two open blocks at most. -/
theorem length_blocks_le (h : readTokens {} tokens = .ok s)
    (hunbroken : ∀ t ∈ tokens, t.kind ≠ .lineBreak → Unbroken t.value) :
    s.blocks.length ≤ 2 := by
  obtain ⟨hruns, -⟩ := kept_runs hunbroken
  -- each open block fits the one around it, so there are as many as the innermost is deep
  have hstart : Sound {} := .outermost (List.forall_mem_nil _)
  have hsound : s.Sound := hstart.foldlM h hruns
  rw [hsound.depth]
  exact s.scope.depth_le

/-! ### Braces at the end -/

/-- A closing brace right behind the end of a statement closes the innermost block. -/
theorem readRest_closer (ht : t.kind = .blockEnd) (b : OpenBlock) (outer : List OpenBlock)
    (body : List Statement) (fault : Option Fault) :
    readRest ⟨b :: outer, body⟩ ⟨t :: more, fault⟩ =
      readRest ⟨outer, b.close body⟩ ⟨more, fault⟩ := by
  have hstep : step ⟨b :: outer, body⟩ ⟨[], t⟩ = .ok ⟨outer, b.close body⟩ := by
    unfold step
    rw [ht]
    rfl
  rw [readRest_cons (by rw [ht]; rfl), hstep]
  rfl

/-- As many braces as there are open blocks close all of them, as the end of the text does. -/
theorem readRest_closers {blocks : List OpenBlock} {braces : List Token}
    (hbraces : ∀ t ∈ braces, t.kind = .blockEnd) (hlength : braces.length = blocks.length)
    (body : List Statement) (fault : Option Fault) :
    readRest ⟨blocks, body⟩ ⟨braces ++ more, fault⟩ =
      readRest ⟨[], blocks.foldl (fun body b => b.close body) body⟩ ⟨more, fault⟩ := by
  -- from the innermost block out; the body that is put together goes to the block around it
  induction blocks generalizing braces body with
  | nil =>
    rw [List.eq_nil_of_length_eq_zero hlength]
    rfl
  | cons b outer ih =>
    obtain ⟨t, braces, rfl⟩ := List.exists_cons_of_length_eq_add_one hlength
    obtain ⟨ht, hmore⟩ := List.forall_mem_cons.mp hbraces
    rw [List.cons_append, readRest_closer ht]
    exact ih hmore (Nat.succ.inj hlength) _

theorem readRest_closed {body : List Statement} : readRest ⟨[], body⟩ ⟨[], none⟩ =
    .ok ⟨body.reverse⟩ := rfl

/-- Where no block is open, a closing brace is refused. -/
theorem readRest_unmatched (ht : t.kind = .blockEnd) (body : List Statement)
    (fault : Option Fault) :
    readRest ⟨[], body⟩ ⟨t :: more, fault⟩ = .error ⟨.unmatchedBlockEnd, t.span.start⟩ := by
  have hstep : step ⟨[], body⟩ ⟨[], t⟩ = .error ⟨.unmatchedBlockEnd, t.span.start⟩ := by
    unfold step
    rw [ht]
    rfl
  rw [readRest_cons (by rw [ht]; rfl), hstep]
  rfl

end ReadState

/-- Behind a file that is read, a separator and the braces that its open blocks miss, reading goes
on with all blocks closed. -/
theorem RuleFile.ofTokens_closed {f : RuleFile} (h : ofTokens ⟨tokens, none⟩ = .ok f)
    (ht : t.kind.separates = true) {braces : List Token}
    (hbraces : ∀ t ∈ braces, t.kind = .blockEnd) (hopen : openCount tokens = braces.length)
    (more : List Token) :
    ofTokens ⟨tokens ++ t :: (braces ++ more), none⟩ =
      ReadState.readRest ⟨[], f.body.reverse⟩ ⟨more, none⟩ := by
  obtain ⟨s, hfold, hfinish⟩ := ofTokens_eq_ok h
  have hread : ReadState.readTokens {} tokens = .ok s := hfold
  obtain ⟨s₁, hadd, hok⟩ := ok_of_bind hfinish
  have hbody : f.body.reverse = s₁.blocks.foldl (fun body b => b.close body) s₁.body := by
    cases hok
    exact List.reverse_reverse _
  have hlength : braces.length = s₁.blocks.length := by
    have hcount := ReadState.openCount_of_readTokens hread
    rw [ReadState.blocks_addStatement hadd]
    omega
  show ReadState.readRest {} ⟨tokens ++ t :: (braces ++ more), none⟩ = _
  rw [ReadState.readRest_cut (TokenKind.endsStatement_of_separates ht), hread]
  -- the separator reads the last statement, as the end of the text does
  show s.step ⟨(Runs.ofTokens tokens).last, t⟩ >>= _ = _
  rw [ReadState.step_separator ht, hadd, hbody]
  exact ReadState.readRest_closers hbraces hlength s₁.body none

/-- Reading does not look at the kinds and places of separators. -/
theorem RuleFile.ofTokens_uniform (h : front.map Token.uniform = tokens.map Token.uniform)
    (more : List Token) (fault : Option Fault) :
    ofTokens ⟨front ++ more, fault⟩ = ofTokens ⟨tokens ++ more, fault⟩ := by
  rw [← ofTokens_visible (front ++ more), ← ofTokens_visible (tokens ++ more),
    ← withoutComments_uniform, ← withoutComments_uniform, List.map_append, List.map_append, h]

/-! ### Whole texts -/

namespace RuleFile

variable {source : String} {f : RuleFile}

/-- What is read has all its tokens. -/
theorem exists_complete_of_parse (h : parse source = .ok f) :
    ∃ tokens, TokenStream.ofText source = ⟨tokens, none⟩ ∧ ofTokens ⟨tokens, none⟩ = .ok f := by
  obtain ⟨s, -, hrest⟩ := ok_of_bind h
  cases hfault : (TokenStream.ofText source).fault with
  | some fault =>
    rw [hfault] at hrest
    cases hrest
  | none =>
    have hstream : TokenStream.ofText source = ⟨(TokenStream.ofText source).tokens, none⟩ := by
      rw [← hfault]
    refine ⟨_, hstream, ?_⟩
    rw [← hstream]
    exact h

/-- As many braces as there are open blocks change nothing. -/
theorem parse_closedBy (h : ofTokens ⟨tokens, none⟩ = .ok f)
    (htokens : TokenStream.ofText source = ⟨tokens, none⟩) {k : Nat}
    (hopen : openCount tokens = k) :
    parse (closedBy source k) = .ok f := by
  obtain ⟨tokens', t, braces, q, hlaid, huniform, ht, hlength, hbraces⟩ :=
    exists_laid_closed htokens k []
  have hstream : TokenStream.ofText (closedBy source k) = ⟨tokens' ++ t :: braces, none⟩ := by
    rw [List.append_nil] at hlaid
    rw [TokenStream.ofText, Cursor.ofText_closedBy]
    exact TokenStream.ofSteps_eq_complete_iff.mpr ⟨q, [], hlaid, List.forall_mem_nil _⟩
  have hclosed := ofTokens_closed h ht hbraces (by rw [hopen, hlength]) []
  rw [List.append_nil] at hclosed
  rw [parse, hstream, ofTokens_uniform huniform, hclosed, ReadState.readRest_closed,
    List.reverse_reverse]

/-- One brace more is refused, at its place. -/
theorem parse_closedBy_succ (h : ofTokens ⟨tokens, none⟩ = .ok f)
    (htokens : TokenStream.ofText source = ⟨tokens, none⟩) {k : Nat}
    (hopen : openCount tokens = k) :
    ∃ mark body, (closedBy source (k + 1)).toList = mark ++ (body ++ ['\x7d']) ∧
      (mark = [byteOrderMark] ∨
        mark = [] ∧ (closedBy source (k + 1)).toList.head? ≠ some byteOrderMark) ∧
      parse (closedBy source (k + 1)) =
        .error ⟨.unmatchedBlockEnd, .nth mark (body ++ ['\x7d']) body.length⟩ := by
  obtain ⟨tokens', t, braces, q, hlaid, huniform, ht, hlength, hbraces⟩ :=
    exists_laid_closed htokens k ['\x7d']
  obtain ⟨last, r, hlast, hkind, hstart⟩ := exists_laid_closer q []
  have hcursor := Cursor.ofText_closedBy source (k + 1)
  rw [List.replicate_succ'] at hcursor
  have hstream : TokenStream.ofText (closedBy source (k + 1)) =
      ⟨tokens' ++ t :: (braces ++ [last]), none⟩ := by
    have hall := hlaid.append hlast
    rw [List.append_assoc, List.cons_append] at hall
    rw [TokenStream.ofText, hcursor]
    exact TokenStream.ofSteps_eq_complete_iff.mpr ⟨r, [], hall, List.forall_mem_nil _⟩
  -- the layout up to the last brace walks to its place
  obtain ⟨body, htext, hq⟩ := hlaid.exists_taken
  obtain ⟨mark, text, hsource, hmark, hstands⟩ := Cursor.standsAt_ofText (closedBy source (k + 1))
  have hbody : text = body ++ ['\x7d'] := by
    rw [← htext, ← List.drop_zero (l := text), ← hstands.rest, hcursor]
  have hplace : last.span.start = .nth mark (body ++ ['\x7d']) body.length := by
    have hposition := hstands.position
    rw [hcursor] at hposition
    rw [hstart, hq, show (Cursor.ofText source).position = _ from hposition, hbody,
      Position.advance_nth rfl, Nat.zero_add]
  refine ⟨mark, body, by rw [hsource, hbody], hmark, ?_⟩
  rw [parse, hstream, ofTokens_uniform huniform,
    ofTokens_closed h ht hbraces (by rw [hopen, hlength]), ReadState.readRest_unmatched hkind,
    hplace]

/-- **The end of a text closes the blocks that are open, and nothing else is forgiven.**  While a
text is read, between none and two blocks are open.  With the `k` braces that are missing at its
end on a line of their own, it is read as the same file, places included; and one brace more is
refused, as one that closes no block, where it stands. -/
theorem parse_closed (source : String) (f : RuleFile) (h : parse source = .ok f) :
    ∃ tokens, tokenize source = .ok tokens ∧
      (∀ front, front <+: tokens → 0 ≤ openCount front ∧ openCount front ≤ 2) ∧
      ∃ k : Nat, openCount tokens = k ∧ parse (closedBy source k) = .ok f ∧
        ∃ mark body, (closedBy source (k + 1)).toList = mark ++ (body ++ ['\x7d']) ∧
          (mark = [byteOrderMark] ∨
            mark = [] ∧ (closedBy source (k + 1)).toList.head? ≠ some byteOrderMark) ∧
          parse (closedBy source (k + 1)) =
            .error ⟨.unmatchedBlockEnd, .nth mark (body ++ ['\x7d']) body.length⟩ := by
  obtain ⟨tokens, htokens, hfile⟩ := exists_complete_of_parse h
  obtain ⟨s, hfold, -⟩ := ofTokens_eq_ok hfile
  have hread : ReadState.readTokens {} tokens = .ok s := hfold
  have hunbroken := TokenStream.unbroken_ofText source
  rw [htokens] at hunbroken
  refine ⟨tokens, tokenize_eq_ok_iff.mpr htokens, ?_, s.blocks.length, ?_, ?_, ?_⟩
  · intro front hfront
    -- what is read of all tokens is read of the first ones, and both bounds are about open blocks
    obtain ⟨s₁, hread₁⟩ := ReadState.exists_readTokens_prefix hread hfront
    have hcount := ReadState.openCount_of_readTokens hread₁
    have hle := ReadState.length_blocks_le hread₁ fun t ht => hunbroken t (hfront.subset ht)
    omega
  · exact ReadState.openCount_of_readTokens hread
  · exact parse_closedBy hfile htokens (ReadState.openCount_of_readTokens hread)
  · exact parse_closedBy_succ hfile htokens (ReadState.openCount_of_readTokens hread)

end RuleFile

end

namespace RuleFile

/-- A statement in two open blocks, braces in a string and in a comment, and a CR at the end. -/
def openSample : String :=
  "\ufeffa.com => \x7b\nlocation /x \x7b\nset $v '\x7d' # \x7d\r"

theorem parse_closed_openSample : ∃ f, parse openSample = .ok f ∧
    parse (closedBy openSample 2) = .ok f ∧
    ∃ mark body, (closedBy openSample 3).toList = mark ++ (body ++ ['\x7d']) ∧
      parse (closedBy openSample 3) =
        .error ⟨.unmatchedBlockEnd, .nth mark (body ++ ['\x7d']) body.length⟩ := by
  obtain ⟨f, hf, -⟩ : ∃ f, parse openSample = .ok f ∧ True := exists_parse (by decide +kernel)
  obtain ⟨tokens, htokens, -, k, hopen, hsame, mark, body, htext, -, hrefused⟩ :=
    parse_closed openSample f hf
  have htwo : openCount (TokenStream.ofText openSample).tokens = 2 := by decide +kernel
  obtain rfl : k = 2 := by
    rw [tokenize_eq_ok_iff.mp htokens, hopen] at htwo
    exact Int.ofNat.inj htwo
  exact ⟨f, hf, hsame, mark, body, htext, hrefused⟩

end RuleFile

end HostRules
