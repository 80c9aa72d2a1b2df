/-
HostRules/Proofs/Parsed.lean

What is read is well-formed.  A text has no line break in a token but as a token of its own, so
the tokens of a statement are free of them; a statement that is read from such tokens, and a
header that is read before a brace, is one that can be written at its place.

Design.  A reading state is sound when all that it holds is, and every open block stands where
its kind may stand (`ReadState.Sound`).  One run takes a sound state to a sound one
(`Sound.step`), so all of them do (`Sound.foldlM`), and closing the blocks that are still open
at the end of the text leaves a sound file (`Sound.finish`).

Main result: `RuleFile.parse_wellFormed`.
-/
import HostRules.Proofs.Joining
import HostRules.Proofs.Slashes
import HostRules.Regex.Standard

namespace HostRules

variable {quote : Char} {raw content rest value text left : List Char} {kind : TokenKind}
variable {p q : Position} {tokens : List Token} {t : Token}

/-! ### Line breaks in the values of tokens -/

theorem QuotedText.content_not_break (h : QuotedText quote raw content) :
    ∀ c ∈ content, isLineBreak c = false := by
  induction h with
  | nil => nofun
  | plain _ _ hb _ ih => exact List.forall_mem_cons.mpr ⟨hb, ih⟩
  | escaped hb _ ih => exact List.forall_mem_cons.mpr ⟨hb, ih⟩

/-- Only line breaks have one as their value. -/
theorem Spells.value_not_break (h : Spells kind value raw rest) (hk : kind ≠ .lineBreak) :
    ∀ c ∈ value, isLineBreak c = false := by
  have hraw := h.raw_not_break hk
  -- but for strings, the value of a token is its text
  cases h with
  | quoted _ ht => exact ht.content_not_break
  | _ => exact hraw

theorem Laid.unbroken (h : Laid p text tokens q left) :
    ∀ t ∈ tokens, t.kind ≠ .lineBreak → Unbroken t.value := by
  induction h with
  | nil => nofun
  | cons _ hs _ _ _ ih => exact List.forall_mem_cons.mpr ⟨hs.value_not_break, ih⟩

theorem TokenStream.unbroken_ofText (source : String) :
    ∀ t ∈ (ofText source).tokens, t.kind ≠ .lineBreak → Unbroken t.value := by
  obtain ⟨q, left, hlaid, -⟩ := laid_ofSteps (Cursor.ofText source)
  exact hlaid.unbroken

/-! ### Tokens that are kept -/

/-- A token that a rule file can hold: it belongs to a statement and does not break the line. -/
def Token.Kept (t : Token) : Prop := t.Inner ∧ Unbroken t.value

/-- What holds of the tokens that end no statement holds within all runs. -/
theorem Runs.forall_ofTokens {P : Token → Prop}
    (h : ∀ t ∈ tokens, t.kind.endsStatement = false → P t) :
    (∀ run ∈ (ofTokens tokens).complete, ∀ t ∈ run.tokens, P t) ∧
      ∀ t ∈ (ofTokens tokens).last, P t := by
  induction tokens with
  | nil => exact ⟨List.forall_mem_nil _, List.forall_mem_nil _⟩
  | cons t tokens ih =>
    obtain ⟨ht, htokens⟩ := List.forall_mem_cons.mp h
    obtain ⟨hruns, hlast⟩ := ih htokens
    rw [show ofTokens (t :: tokens) = Runs.cons t (ofTokens tokens) from rfl, Runs.cons]
    -- `t` ends a run of its own, or goes to the run behind it
    split
    · exact ⟨List.forall_mem_cons.mpr ⟨List.forall_mem_nil _, hruns⟩, hlast⟩
    · next hends =>
      have hP : P t := ht (by simpa using hends)
      cases hcomplete : (ofTokens tokens).complete with
      | nil => exact ⟨List.forall_mem_nil _, List.forall_mem_cons.mpr ⟨hP, hlast⟩⟩
      | cons run more =>
        rw [hcomplete] at hruns
        obtain ⟨hrun, hmore⟩ := List.forall_mem_cons.mp hruns
        exact ⟨List.forall_mem_cons.mpr ⟨List.forall_mem_cons.mpr ⟨hP, hrun⟩, hmore⟩, hlast⟩

theorem kept_withoutComments
    (h : ∀ t ∈ tokens, t.kind.endsStatement = false ∧ Unbroken t.value) :
    ∀ t ∈ withoutComments tokens, t.Kept := by
  intro t ht
  obtain ⟨hmem, hcomment⟩ := List.mem_filter.mp ht
  obtain ⟨hends, hunbroken⟩ := h t hmem
  exact ⟨⟨hends, by simpa using hcomment⟩, hunbroken⟩

/-- Where no token holds a line break but as a token of its own, the statements keep theirs. -/
theorem kept_runs (h : ∀ t ∈ tokens, t.kind ≠ .lineBreak → Unbroken t.value) :
    (∀ run ∈ (Runs.ofTokens tokens).complete, ∀ t ∈ withoutComments run.tokens, t.Kept) ∧
      ∀ t ∈ withoutComments (Runs.ofTokens tokens).last, t.Kept := by
  -- a token that ends no statement is no line break
  have hinner : ∀ t ∈ tokens, t.kind.endsStatement = false →
      t.kind.endsStatement = false ∧ Unbroken t.value := by
    intro t ht hends
    refine ⟨hends, h t ht ?_⟩
    rintro hkind
    rw [hkind] at hends
    cases hends
  obtain ⟨hruns, hlast⟩ := Runs.forall_ofTokens hinner
  exact ⟨fun run hrun => kept_withoutComments (hruns run hrun), kept_withoutComments hlast⟩

theorem Statement.operands_of_no_arrow (hkept : ∀ t ∈ tokens, t.Kept)
    (harrow : ¬ tokens.any (·.value == "=>") = true) : ∀ t ∈ tokens, Operand t.value := by
  intro t ht
  refine ⟨(hkept t ht).2, ?_⟩
  rintro hvalue
  exact harrow (List.any_eq_true.mpr ⟨t, ht, by simp [hvalue]⟩)

/-! ### Host names and levels -/

namespace Header

variable {parent : BlockKind}

theorem not_of_mem_splitAtChars {p : Char → Bool} {text piece : List Char}
    (h : piece ∈ splitAtChars p text) : ∀ c ∈ piece, p c = false := by
  induction text generalizing piece with
  | nil =>
    rw [List.mem_singleton.mp h]
    exact List.forall_mem_nil _
  | cons c cs ih =>
    unfold splitAtChars at h ih
    rw [List.foldr_cons] at h
    split at h
    · rcases List.mem_cons.mp h with rfl | h
      · exact List.forall_mem_nil _
      · exact ih h
    · next hc =>
      -- the character joins the first of the pieces behind it
      have hc' : p c = false := by simpa using hc
      split at h
      · rw [List.mem_singleton.mp h]
        exact List.forall_mem_cons.mpr ⟨hc', List.forall_mem_nil _⟩
      · next first more hpieces =>
        rw [hpieces] at ih
        rcases List.mem_cons.mp h with rfl | h
        · exact List.forall_mem_cons.mpr ⟨hc', ih List.mem_cons_self⟩
        · exact ih (List.mem_cons_of_mem first h)

theorem hostName_of_mem_namesOf {name : String} (h : name ∈ namesOf tokens) : HostName name := by
  obtain ⟨t, -, hname⟩ := List.mem_flatMap.mp h
  obtain ⟨piece, hpiece, rfl⟩ := List.mem_map.mp hname
  obtain ⟨hpiece, hne⟩ := List.mem_filter.mp hpiece
  constructor
  · rintro hempty
    have hnil : piece = [] := by simpa using congrArg String.toList hempty
    simp [hnil] at hne
  · rw [String.toList_ofList]
    exact not_of_mem_splitAtChars hpiece

/-- A block opens in the one kind of block that may stand around it. -/
theorem parent_of_depth {child around : BlockKind} (hdepth : child.depth = parent.depth + 1)
    (hchild : child.parent? = some around) : parent = around := by
  have hparent := BlockKind.child?_eq_some_iff.mp (BlockKind.child?_eq_some_iff_depth.mpr hdepth)
  exact Option.some.inj (hparent.symm.trans hchild)

end Header

section

variable [Regex.Dialect]

/-! ### Statements -/

mutual

/-- The tokens that a statement holds, those of the statements inside it included. -/
def Statement.heldTokens : Statement → List Token
  | domain _ body => bodyTokens body
  | location _ body => bodyTokens body
  | call _ arguments => arguments
  | declare _ value => value.items
  | rule source target => [source, target]

/-- The tokens that the statements of a body hold. -/
def Statement.bodyTokens : List Statement → List Token
  | [] => []
  | s :: more => s.heldTokens ++ bodyTokens more

end

/-- The tokens that a rule file holds. -/
def RuleFile.heldTokens (f : RuleFile) : List Token := Statement.bodyTokens f.body

namespace Statement

variable {scope : BlockKind} {body : List Statement} {st : Statement}

theorem bodyWellFormed_iff : BodyWellFormed scope body ↔ ∀ s ∈ body, s.WellFormed scope := by
  induction body with
  | nil => simp [BodyWellFormed]
  | cons s more ih => simp [BodyWellFormed, ih]

theorem mem_bodyTokens : t ∈ bodyTokens body ↔ ∃ s ∈ body, t ∈ s.heldTokens := by
  induction body with
  | nil => simp [bodyTokens]
  | cons s more ih => simp [bodyTokens, ih]

/-- A statement that can be read in a block of the kind `scope`. -/
structure Sound (scope : BlockKind) (s : Statement) : Prop where
  wellFormed : s.WellFormed scope
  kept : ∀ t ∈ s.heldTokens, t.Kept

/-- Tokens that are kept write a statement that can stand in every kind of block. -/
theorem sound_of_read (h : Statement.read tokens = .ok (some st)) (hkept : ∀ t ∈ tokens, t.Kept)
    (scope : BlockKind) : st.Sound scope := by
  unfold Statement.read at h
  split at h
  · cases h
  · next first more =>
    split at h
    · -- with an arrow anywhere only a rule can be read
      split at h
      · next middle target _ =>
        split at h
        · cases h
          have hfirst : first.Kept := hkept first (by simp)
          have htarget : target.Kept := hkept target (by simp)
          exact ⟨⟨hfirst.2, htarget.2⟩, by simpa [heldTokens] using ⟨hfirst, htarget⟩⟩
        · cases h
      · cases h
    · next harrow =>
      have hoperands := operands_of_no_arrow hkept harrow
      obtain ⟨hfirst, hmore⟩ := List.forall_mem_cons.mp hoperands
      obtain ⟨-, hheld⟩ := List.forall_mem_cons.mp hkept
      split at h
      · split at h
        · cases h
        · cases h
        · next name value =>
          cases h
          obtain ⟨hname, hvalue⟩ := List.forall_mem_cons.mp hmore
          obtain ⟨-, hheld⟩ := List.forall_mem_cons.mp hheld
          exact ⟨⟨hname, hvalue value (by simp)⟩, hheld⟩
        · next name values hnone hone =>
          cases h
          obtain ⟨hname, hvalues⟩ := List.forall_mem_cons.mp hmore
          obtain ⟨-, hheld⟩ := List.forall_mem_cons.mp hheld
          have hlength : 2 ≤ values.length := by
            cases values with
            | nil => exact (hnone rfl).elim
            | cons v vs =>
              cases vs with
              | nil => exact (hone v rfl).elim
              | cons w ws => simp
          exact ⟨⟨hname, hlength, hvalues⟩, hheld⟩
      · next hset =>
        cases h
        exact ⟨⟨hset, hfirst, hmore⟩, hheld⟩

end Statement

/-! ### Headers -/

namespace Header

variable {parent : BlockKind} {header : Header} {body : List Statement}

/-- A header that can open a block in a block of the kind `parent`. -/
def Fits (parent : BlockKind) : Header → Prop
  | .domain names => parent = .global ∧ names ≠ [] ∧ ∀ name ∈ names, HostName name
  | .location pattern => parent = .domain ∧ pattern.WellFormed

/-- A header that fits makes a block of a body that fits the header. -/
theorem Fits.withBody (h : header.Fits parent) (hbody : ∀ s ∈ body, s.Sound header.kind) :
    (header.withBody body).Sound parent := by
  have hwritten : Statement.BodyWellFormed header.kind body :=
    Statement.bodyWellFormed_iff.mpr fun s hs => (hbody s hs).wellFormed
  have hkept : ∀ t ∈ Statement.bodyTokens body, t.Kept := by
    intro t ht
    obtain ⟨s, hs, hts⟩ := Statement.mem_bodyTokens.mp ht
    exact (hbody s hs).kept t hts
  cases header with
  | domain names => exact ⟨⟨h.1, h.2.1, h.2.2, hwritten⟩, hkept⟩
  | location pattern => exact ⟨⟨h.1, h.2, hwritten⟩, hkept⟩

theorem readRegex_wellFormed {pattern : LocationPattern} (h : readRegex t = .ok pattern)
    (ht : Unbroken t.value) : pattern.WellFormed := by
  unfold readRegex at h
  split at h
  · next r hr =>
    cases h
    -- the source that is kept is the rewritten one, so rewriting it again changes nothing
    have hsource := Regex.source_of_ofSource hr
    constructor
    · rw [hsource, String.toList_ofList, Regex.sourceOf_sourceOf]
    · intro c hc
      rw [hsource, String.toList_ofList] at hc
      rcases Regex.mem_sourceOf hc with hc | hc
      · exact ht c hc
      · simp only [List.mem_cons, List.not_mem_nil, or_false] at hc
        rcases hc with rfl | rfl | rfl | rfl <;> decide
  · cases h

theorem readPattern_wellFormed {marker : Token} {more : List Token} {pattern : LocationPattern}
    (h : readPattern marker more = .ok pattern) (hmarker : Unbroken marker.value)
    (hmore : ∀ t ∈ more, Unbroken t.value) : pattern.WellFormed := by
  unfold readPattern at h
  split at h
  · split at h
    · cases h
    · next t _ => exact readRegex_wellFormed h (hmore t (by simp))
  · next htilde =>
    cases h
    exact ⟨htilde, hmarker⟩

/-- A header that is read fits the block around it. -/
theorem fits_of_read {brace : Position} (h : read tokens brace parent = .ok header)
    (htokens : ∀ t ∈ tokens, Unbroken t.value) : header.Fits parent := by
  obtain ⟨first, second, more, rfl, hdepth, hcases⟩ := read_eq_ok h
  rcases hcases with ⟨-, pattern, hread, rfl⟩ | ⟨-, names, -, hne, rfl⟩
  · simp only [List.forall_mem_cons] at htokens
    obtain ⟨-, hsecond, hmore⟩ := htokens
    exact ⟨parent_of_depth hdepth rfl, readPattern_wellFormed hread hsecond hmore⟩
  · exact ⟨parent_of_depth hdepth rfl, hne, fun name => hostName_of_mem_namesOf⟩

end Header

/-! ### Reading states -/

namespace ReadState

variable {s s' : ReadState} {body : List Statement} {outer : List OpenBlock} {b : OpenBlock}

/-- Every statement read so far can stand where it stands, and so can every open block. -/
inductive Sound : ReadState → Prop
  | outermost {body : List Statement} : (∀ st ∈ body, st.Sound .global) → Sound ⟨[], body⟩
  | inside {b : OpenBlock} {outer : List OpenBlock} {body : List Statement} :
      Sound ⟨outer, b.before⟩ → b.header.Fits (scope ⟨outer, b.before⟩) →
        (∀ st ∈ body, st.Sound b.header.kind) → Sound ⟨b :: outer, body⟩

theorem Sound.append (h : s.Sound) (statements : List Statement)
    (hstatements : ∀ st ∈ statements, st.Sound s.scope) :
    Sound { s with body := statements ++ s.body } := by
  cases h with
  | outermost hbody =>
    exact .outermost (List.forall_mem_append.mpr ⟨hstatements, hbody⟩)
  | inside haround hfits hbody =>
    exact .inside haround hfits (List.forall_mem_append.mpr ⟨hstatements, hbody⟩)

theorem Sound.openBlock (h : s.Sound) {header : Header} (hfits : header.Fits s.scope) :
    (s.openBlock header).Sound := .inside h hfits nofun

theorem Sound.close (h : Sound ⟨b :: outer, body⟩) : Sound ⟨outer, b.close body⟩ := by
  cases h with
  | inside haround hfits hbody =>
    -- the block that closes is a statement of the body around it, which it fits since it opened
    refine haround.append [b.header.withBody body.reverse] ?_
    refine List.forall_mem_singleton.mpr (hfits.withBody fun st hst => ?_)
    exact hbody st (List.mem_reverse.mp hst)

/-- The statement that kept tokens write can be added. -/
theorem Sound.read (h : s.Sound) {st : Option Statement} (hread : Statement.read tokens = .ok st)
    (hkept : ∀ t ∈ tokens, t.Kept) : Sound { s with body := st.toList ++ s.body } := by
  refine h.append st.toList fun st' hst' => ?_
  rw [Option.mem_toList] at hst'
  cases hst'
  exact Statement.sound_of_read hread hkept s.scope

/-- A run of kept tokens takes a sound state to a sound one. -/
theorem Sound.step (h : s.Sound) {run : Run} (hstep : s.step run = .ok s')
    (hrun : ∀ t ∈ withoutComments run.tokens, t.Kept) : s'.Sound := by
  have hdoes := step_eq_ok hstep
  cases hkind : run.terminator.kind with
  | blockStart =>
    simp only [hkind] at hdoes
    obtain ⟨header, hread, rfl⟩ := hdoes
    exact h.openBlock (Header.fits_of_read hread fun t ht => (hrun t ht).2)
  | blockEnd =>
    simp only [hkind] at hdoes
    obtain ⟨b, outer, st, hblocks, hread, rfl⟩ := hdoes
    have hread' := h.read hread hrun
    rw [hblocks] at hread'
    exact hread'.close
  | _ =>
    simp only [hkind] at hdoes
    obtain ⟨st, hread, rfl⟩ := hdoes
    exact h.read hread hrun

theorem Sound.foldlM {runs : List Run} (h : s.Sound) (hfold : runs.foldlM ReadState.step s = .ok s')
    (hruns : ∀ run ∈ runs, ∀ t ∈ withoutComments run.tokens, t.Kept) : s'.Sound := by
  -- along the runs, which take sound states to sound states
  induction runs generalizing s with
  | nil =>
    cases hfold
    exact h
  | cons run runs ih =>
    obtain ⟨hrun, hmore⟩ := List.forall_mem_cons.mp hruns
    rw [List.foldlM_cons] at hfold
    obtain ⟨s₁, hstep, hrest⟩ := ok_of_bind hfold
    exact ih (h.step hstep hrun) hrest hmore

/-- Closing the open blocks of a sound state leaves a sound body. -/
theorem Sound.close_all (h : Sound ⟨outer, body⟩) :
    ∀ st ∈ outer.foldl (fun body b => b.close body) body, st.Sound .global := by
  induction outer generalizing body with
  | nil =>
    cases h with
    | outermost hbody => exact hbody
  | cons b outer ih => exact ih h.close

theorem Sound.finish (h : s.Sound) {last : List Token} {f : RuleFile}
    (hfinish : s.finish last = .ok f) (hlast : ∀ t ∈ withoutComments last, t.Kept) :
    ∀ st ∈ f.body, st.Sound .global := by
  obtain ⟨st, hread, rfl⟩ := finish_eq_ok hfinish
  intro st' hst'
  exact (h.read hread hlast).close_all st' (List.mem_reverse.mp hst')

end ReadState

/-! ### Whole files -/

namespace RuleFile

variable {f : RuleFile}

/-- Tokens that hold no line break but as tokens of their own are read as sound statements. -/
theorem sound_of_ofTokens {stream : TokenStream} (h : ofTokens stream = .ok f)
    (hstream : ∀ t ∈ stream.tokens, t.kind ≠ .lineBreak → Unbroken t.value) :
    ∀ st ∈ f.body, st.Sound .global := by
  obtain ⟨hruns, hlast⟩ := kept_runs hstream
  obtain ⟨s, hfold, hfinish⟩ := ofTokens_eq_ok h
  have hstart : ReadState.Sound {} := .outermost (List.forall_mem_nil _)
  have hsound : s.Sound := hstart.foldlM hfold hruns
  exact hsound.finish hfinish hlast

/-- **What is read can be written.**  A rule file that is read is well-formed, and none of the
tokens that it holds is a comment, ends a statement or breaks the line. -/
theorem parse_wellFormed (source : String) (f : RuleFile) (h : parse source = .ok f) :
    f.WellFormed ∧ ∀ t ∈ f.heldTokens,
      t.kind.endsStatement = false ∧ t.kind ≠ .comment ∧ Unbroken t.value := by
  have hsound := sound_of_ofTokens h (TokenStream.unbroken_ofText source)
  refine ⟨Statement.bodyWellFormed_iff.mpr fun st hst => (hsound st hst).wellFormed, ?_⟩
  intro t ht
  obtain ⟨st, hst, hheld⟩ := Statement.mem_bodyTokens.mp ht
  obtain ⟨⟨hends, hcomment⟩, hunbroken⟩ := (hsound st hst).kept t hheld
  exact ⟨hends, hcomment, hunbroken⟩

end RuleFile

end

namespace RuleFile

/-- A quoted host name with stray commas, a brace in a comment, a regular expression with a flag,
a block that closes behind its last statement and one that the end of the text closes. -/
def crowdedSample : String :=
  "'a.com',,b => \x7b # \x7d\nlocation ~ '/^a/b/s' \x7b set $l 1 '\x7b' ;log \x7d\n"

theorem parse_wellFormed_crowdedSample : ∃ f, parse crowdedSample = .ok f ∧
    f.WellFormed ∧ ∀ t ∈ f.heldTokens,
      t.kind.endsStatement = false ∧ t.kind ≠ .comment ∧ Unbroken t.value := by
  obtain ⟨f, hf, -⟩ : ∃ f, parse crowdedSample = .ok f ∧ True := exists_parse (by decide +kernel)
  exact ⟨f, hf, parse_wellFormed crowdedSample f hf⟩

end RuleFile

end HostRules
