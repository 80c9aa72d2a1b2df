/-
HostRules/Proofs/Joining.lean

Rule files are read line by line: what a text says does not depend on the lines that come
behind it, nor on the lines before it once all of their blocks are closed.

    parse (a ++ "\n" ++ b)  =  the statements of parse a, then those of parse b

Design.  A reading state is put behind statements that are already there (`ReadState.behind`);
reading a run does not look at them (`ReadState.step_behind`).  The first text leaves no block
open when its braces balance, since every run moves the depth by what its terminator says
(`ReadState.depth_step`).
-/
import HostRules.Proofs.RoundTrip
import HostRules.Proofs.Streams
import HostRules.Regex.Standard

namespace HostRules

variable {tokens more : List Token} {t : Token}

/-! ### Runs of joined tokens -/

/-- A token that ends a statement cuts the tokens in two. -/
theorem Runs.ofTokens_cut (ht : t.kind.endsStatement = true) (tokens more : List Token) :
    Runs.ofTokens (tokens ++ t :: more) =
      ⟨(Runs.ofTokens tokens).complete ++
          ⟨(Runs.ofTokens tokens).last, t⟩ :: (Runs.ofTokens more).complete,
        (Runs.ofTokens more).last⟩ := by
  -- a token before the cut goes to the first run, which the cut leaves as it is
  induction tokens with
  | nil =>
    show Runs.cons t (Runs.ofTokens more) = _
    rw [Runs.cons, if_pos ht]
    rfl
  | cons t' tokens ih =>
    show Runs.cons t' (Runs.ofTokens (tokens ++ t :: more)) =
      ⟨(Runs.cons t' (Runs.ofTokens tokens)).complete ++
          ⟨(Runs.cons t' (Runs.ofTokens tokens)).last, t⟩ :: _, _⟩
    rw [ih]
    unfold Runs.cons
    split
    · rfl
    · cases (Runs.ofTokens tokens).complete <;> rfl

/-- The tokens that end statements are the terminators of the complete runs. -/
theorem Runs.countP_complete (kind : TokenKind) (hk : kind.endsStatement = true)
    (tokens : List Token) :
    (Runs.ofTokens tokens).complete.countP (·.terminator.kind == kind) =
      tokens.countP (·.kind == kind) := by
  induction tokens with
  | nil => rfl
  | cons t tokens ih =>
    show (Runs.cons t (Runs.ofTokens tokens)).complete.countP _ = _
    rw [List.countP_cons, ← ih, Runs.cons]
    split
    · rw [List.countP_cons]
    · next hend =>
      -- a token inside of a run ends no statement, so it is not of the kind that is counted
      have hno : ¬ (t.kind == kind) = true := by
        intro h
        rw [eq_of_beq h] at hend
        exact hend hk
      rw [if_neg hno]
      cases (Runs.ofTokens tokens).complete with
      | nil => rfl
      | cons run runs =>
        rw [List.countP_cons, List.countP_cons]
        rfl

/-- Tokens of which none ends a statement are the last statement. -/
theorem ReadState.unended_ofTokens (h : ∀ t ∈ tokens, t.kind.endsStatement = false) :
    Runs.ofTokens tokens = ⟨[], tokens⟩ := by
  induction tokens with
  | nil => rfl
  | cons t tokens ih =>
    obtain ⟨ht, htokens⟩ := List.forall_mem_cons.mp h
    show Runs.cons t (Runs.ofTokens tokens) = _
    rw [ih htokens, Runs.cons, ht]
    rfl

section

variable [Regex.Dialect]

/-! ### What a header and a run do -/

/-- A header that is read opens a location by its pattern or a domain by its names, one level inside
the block around it. -/
theorem Header.read_eq_ok {brace : Position} {parent : BlockKind} {header : Header}
    (h : read tokens brace parent = .ok header) :
    ∃ first second more, tokens = first :: second :: more ∧
      header.kind.depth = parent.depth + 1 ∧
      (first.kind = .keyword .location ∧
          (∃ pattern, readPattern second more = .ok pattern ∧ header = .location pattern) ∨
        first.kind ≠ .keyword .location ∧
          ∃ names, nameTokens? first (second :: more) = some names ∧ namesOf names ≠ [] ∧
            header = .domain (namesOf names)) := by
  have hdepth : ∀ {child : BlockKind} {place : Position} {u : PUnit},
      checkNesting child parent place = .ok u → child.depth = parent.depth + 1 := by
    intro child place u hcheck
    unfold checkNesting at hcheck
    split at hcheck
    · assumption
    · cases hcheck
  unfold read at h
  split at h
  · cases h
  · cases h
  · next first second more =>
    refine ⟨first, second, more, rfl, ?_⟩
    dsimp only at h
    split at h
    · next hlocation =>
      obtain ⟨_, hcheck, hrest⟩ := ok_of_bind h
      obtain ⟨pattern, hread, hok⟩ := ok_of_bind hrest
      cases hok
      exact ⟨hdepth hcheck, Or.inl ⟨hlocation, pattern, hread, rfl⟩⟩
    · next hlocation =>
      split at h
      · cases h
      · next names hnames =>
        obtain ⟨_, hcheck, hrest⟩ := ok_of_bind h
        split at hrest
        · cases hrest
        · next hne =>
          cases hrest
          exact ⟨hdepth hcheck, Or.inr ⟨hlocation, names, hnames, by simpa using hne, rfl⟩⟩

namespace ReadState

variable {s s' : ReadState} {earlier : List Statement}

theorem addStatement_eq_ok (h : s.addStatement tokens = .ok s') :
    ∃ st, Statement.read tokens = .ok st ∧ s' = { s with body := st.toList ++ s.body } := by
  obtain ⟨st, hread, hok⟩ := ok_of_bind h
  cases hok
  exact ⟨st, hread, rfl⟩

/-- A run opens a block, closes the innermost one behind a last statement, or adds a statement,
as its terminator says. -/
theorem step_eq_ok {run : Run} (h : s.step run = .ok s') :
    match run.terminator.kind with
    | .blockStart => ∃ header, Header.read (withoutComments run.tokens)
        run.terminator.span.start s.scope = .ok header ∧ s' = s.openBlock header
    | .blockEnd => ∃ b outer st, s.blocks = b :: outer ∧
        Statement.read (withoutComments run.tokens) = .ok st ∧
        s' = ⟨outer, b.close (st.toList ++ s.body)⟩
    | _ => ∃ st, Statement.read (withoutComments run.tokens) = .ok st ∧
        s' = { s with body := st.toList ++ s.body } := by
  unfold step at h
  cases hkind : run.terminator.kind with
  | blockStart =>
    simp only [hkind] at h
    obtain ⟨header, hread, hok⟩ := ok_of_bind h
    cases hok
    exact ⟨header, hread, rfl⟩
  | blockEnd =>
    simp only [hkind] at h
    obtain ⟨blocks, body⟩ := s
    cases blocks with
    | nil => cases h
    | cons b outer =>
      obtain ⟨s₁, hadd, hok⟩ := ok_of_bind h
      obtain ⟨st, hread, rfl⟩ := addStatement_eq_ok hadd
      cases hok
      exact ⟨b, outer, st, rfl, hread, rfl⟩
  | _ =>
    simp only [hkind] at h
    exact addStatement_eq_ok h

/-- The end of the text reads a last statement and closes all blocks. -/
theorem finish_eq_ok {last : List Token} {f : RuleFile} (h : s.finish last = .ok f) :
    ∃ st, Statement.read (withoutComments last) = .ok st ∧
      f = ⟨(s.blocks.foldl (fun body b => b.close body) (st.toList ++ s.body)).reverse⟩ := by
  obtain ⟨s₁, hadd, hok⟩ := ok_of_bind h
  obtain ⟨st, hread, rfl⟩ := addStatement_eq_ok hadd
  cases hok
  exact ⟨st, hread, rfl⟩

/-! ### Depth -/

theorem blocks_addStatement (h : s.addStatement tokens = .ok s') : s'.blocks = s.blocks := by
  obtain ⟨st, -, rfl⟩ := addStatement_eq_ok h
  rfl

/-- A run opens or closes a block when its terminator does, and leaves the depth as it is
otherwise. -/
theorem depth_step {run : Run} (h : s.step run = .ok s') :
    s'.blocks.length + (if run.terminator.kind == .blockEnd then 1 else 0) =
      s.blocks.length + (if run.terminator.kind == .blockStart then 1 else 0) := by
  have hdoes := step_eq_ok h
  cases hkind : run.terminator.kind with
  | blockStart =>
    simp only [hkind] at hdoes
    obtain ⟨header, -, rfl⟩ := hdoes
    rfl
  | blockEnd =>
    simp only [hkind] at hdoes
    obtain ⟨b, outer, st, hblocks, -, rfl⟩ := hdoes
    rw [hblocks]
    rfl
  | _ =>
    simp only [hkind] at hdoes
    obtain ⟨st, -, rfl⟩ := hdoes
    rfl

/-- Runs move the depth by the blocks they open less the blocks they close. -/
theorem depth_foldlM {runs : List Run} (h : runs.foldlM step s = .ok s') :
    s'.blocks.length + runs.countP (·.terminator.kind == .blockEnd) =
      s.blocks.length + runs.countP (·.terminator.kind == .blockStart) := by
  induction runs generalizing s with
  | nil =>
    cases h
    rfl
  | cons run runs ih =>
    rw [List.foldlM_cons] at h
    obtain ⟨s₁, hstep, hmore⟩ := ok_of_bind h
    have hfirst := depth_step hstep
    have hdepth := ih hmore
    rw [List.countP_cons, List.countP_cons]
    omega

/-! ### Reading behind what is already there -/

/-- The reading state of some open blocks and a body, behind statements that stand at the head
of the outermost body. -/
def onto (earlier : List Statement) : List OpenBlock → List Statement → ReadState
  | [], body => ⟨[], body ++ earlier⟩
  | b :: outer, body =>
    let around := onto earlier outer b.before
    ⟨⟨b.header, around.body⟩ :: around.blocks, body⟩

/-- A reading state behind statements that are already there, the last one first. -/
def behind (earlier : List Statement) (s : ReadState) : ReadState := onto earlier s.blocks s.body

theorem behind_start (earlier : List Statement) :
    behind earlier {} = ⟨[], earlier⟩ := rfl

theorem behind_openBlock (header : Header) :
    behind earlier (s.openBlock header) = (behind earlier s).openBlock header := rfl

theorem scope_behind : (behind earlier s).scope = s.scope := by
  obtain ⟨blocks, body⟩ := s
  cases blocks <;> rfl

theorem behind_append (statements : List Statement) (blocks : List OpenBlock)
    (body : List Statement) :
    behind earlier ⟨blocks, statements ++ body⟩ =
      { behind earlier ⟨blocks, body⟩ with
        body := statements ++ (behind earlier ⟨blocks, body⟩).body } := by
  cases blocks with
  | nil => simp [behind, onto]
  | cons b outer => rfl

/-- Behind other statements, a block closes as it does without them. -/
theorem behind_close (b : OpenBlock) (outer : List OpenBlock) (body : List Statement) :
    behind earlier ⟨outer, b.close body⟩ =
      ⟨(onto earlier outer b.before).blocks,
        OpenBlock.close ⟨b.header, (onto earlier outer b.before).body⟩ body⟩ :=
  behind_append [b.header.withBody body.reverse] outer b.before

theorem addStatement_behind (tokens : List Token) :
    (behind earlier s).addStatement tokens = (s.addStatement tokens).map (behind earlier) := by
  unfold addStatement
  cases Statement.read tokens with
  | error f => rfl
  | ok st =>
    show Except.ok _ = Except.ok (behind earlier ⟨s.blocks, st.toList ++ s.body⟩)
    rw [behind_append]

/-- Reading a run does not look at the statements that stand before. -/
theorem step_behind (run : Run) :
    (behind earlier s).step run = (s.step run).map (behind earlier) := by
  unfold step
  cases hkind : run.terminator.kind with
  | blockStart =>
    simp only [scope_behind]
    cases Header.read (withoutComments run.tokens) run.terminator.span.start s.scope with
    | error f => rfl
    | ok header => exact congrArg Except.ok (behind_openBlock header).symm
  | blockEnd =>
    obtain ⟨blocks, body⟩ := s
    cases blocks with
    | nil => rfl
    | cons b outer =>
      let around := onto earlier outer b.before
      -- the block that closes goes to the body around it, which may be the one with `earlier` in it
      show (behind earlier ⟨b :: outer, body⟩).addStatement (withoutComments run.tokens) >>=
          (fun s => pure ⟨around.blocks, OpenBlock.close ⟨b.header, around.body⟩ s.body⟩) =
        Except.map (behind earlier)
          (addStatement ⟨b :: outer, body⟩ (withoutComments run.tokens) >>=
            fun s => pure ⟨outer, b.close s.body⟩)
      rw [addStatement_behind]
      cases hadd : addStatement ⟨b :: outer, body⟩ (withoutComments run.tokens) with
      | error f => rfl
      | ok s =>
        obtain ⟨blocks, body'⟩ := s
        obtain rfl : blocks = b :: outer := blocks_addStatement hadd
        exact congrArg Except.ok (behind_close b outer body').symm
  | _ => exact addStatement_behind _

theorem foldlM_behind (runs : List Run) (s : ReadState) :
    runs.foldlM step (behind earlier s) = (runs.foldlM step s).map (behind earlier) := by
  induction runs generalizing s with
  | nil => rfl
  | cons run runs ih =>
    rw [List.foldlM_cons, List.foldlM_cons, step_behind]
    cases s.step run with
    | error f => rfl
    | ok s' => exact ih s'

/-- Closing all blocks gives the statements read behind those that were there. -/
theorem close_behind (blocks : List OpenBlock) (body : List Statement) :
    (behind earlier ⟨blocks, body⟩).blocks.foldl (fun body b => b.close body)
        (behind earlier ⟨blocks, body⟩).body =
      blocks.foldl (fun body b => b.close body) body ++ earlier := by
  induction blocks generalizing body with
  | nil => rfl
  | cons b outer ih =>
    have hbody := ih (b.close body)
    rw [behind_close] at hbody
    exact hbody

theorem finish_behind (last : List Token) :
    (behind earlier s).finish last =
      (s.finish last).map fun f => ⟨earlier.reverse ++ f.body⟩ := by
  unfold finish
  rw [addStatement_behind]
  cases s.addStatement (withoutComments last) with
  | error f => rfl
  | ok s =>
    show Except.ok (RuleFile.mk _) = Except.ok (RuleFile.mk _)
    rw [close_behind, List.reverse_append]

/-- Where all blocks are closed, a line break reads the last statement as the end of the text
does. -/
theorem step_of_finish {last : List Token} {f : RuleFile} (h : s.finish last = .ok f)
    (hclosed : s.blocks = []) (ht : t.kind = .lineBreak) :
    s.step ⟨last, t⟩ = .ok (behind f.body.reverse {}) := by
  have hstep : s.step ⟨last, t⟩ = s.addStatement (withoutComments last) := by
    unfold step
    rw [ht]
  obtain ⟨st, hread, rfl⟩ := finish_eq_ok h
  obtain ⟨blocks, body⟩ := s
  obtain rfl : blocks = [] := hclosed
  rw [hstep, addStatement, hread, behind_start, List.reverse_reverse]
  rfl

/-! ### The rest of a file -/

/-- Reads the file that a stream goes on with from a reading state. -/
def readRest (s : ReadState) (stream : TokenStream) : Except Fault RuleFile := do
  let s ← s.readTokens stream.tokens
  match stream.fault with
  | some f => .error f
  | none => s.finish (Runs.ofTokens stream.tokens).last

/-- Tokens are read up to one that ends a statement, and then on from the state there. -/
theorem readRest_cut (ht : t.kind.endsStatement = true) (fault : Option Fault) :
    s.readRest ⟨tokens ++ t :: more, fault⟩ =
      s.readTokens tokens >>= fun s₁ =>
        s₁.step ⟨(Runs.ofTokens tokens).last, t⟩ >>= fun s₂ => s₂.readRest ⟨more, fault⟩ := by
  unfold readRest readTokens
  simp only [Runs.ofTokens_cut ht, List.foldlM_append, List.foldlM_cons, bind_assoc]

theorem readRest_run (h : ∀ t ∈ tokens, t.kind.endsStatement = false)
    (ht : t.kind.endsStatement = true) (fault : Option Fault) :
    s.readRest ⟨tokens ++ t :: more, fault⟩ =
      s.step ⟨tokens, t⟩ >>= fun s => s.readRest ⟨more, fault⟩ := by
  rw [readRest_cut ht, readTokens, unended_ofTokens h]
  rfl

theorem readRest_last (h : ∀ t ∈ tokens, t.kind.endsStatement = false) :
    s.readRest ⟨tokens, none⟩ = s.finish tokens := by
  rw [readRest, readTokens, unended_ofTokens h]
  rfl

theorem readRest_broken (h : ∀ t ∈ tokens, t.kind.endsStatement = false) (f : Fault) :
    s.readRest ⟨tokens, some f⟩ = .error f := by
  rw [readRest, readTokens, unended_ofTokens h]
  rfl

/-- Behind other statements the rest of a file is read as without them. -/
theorem readRest_onto (stream : TokenStream) :
    (behind earlier s).readRest stream =
      (s.readRest stream).map fun f => ⟨earlier.reverse ++ f.body⟩ := by
  unfold readRest readTokens
  rw [foldlM_behind]
  cases (Runs.ofTokens stream.tokens).complete.foldlM step s with
  | error fault => rfl
  | ok s' =>
    cases stream.fault with
    | some fault => rfl
    | none => exact finish_behind _

end ReadState

/-! ### Joined texts -/

namespace RuleFile

variable {f : RuleFile}

theorem ofTokens_eq_ok {stream : TokenStream} (h : ofTokens stream = .ok f) :
    ∃ s, (Runs.ofTokens stream.tokens).complete.foldlM ReadState.step {} = .ok s ∧
      s.finish (Runs.ofTokens stream.tokens).last = .ok f := by
  obtain ⟨s, hfold, hrest⟩ := ok_of_bind h
  cases hfault : stream.fault with
  | some fault =>
    rw [hfault] at hrest
    cases hrest
  | none =>
    rw [hfault] at hrest
    exact ⟨s, hfold, hrest⟩

/-- Tokens that are read to their end with all blocks closed, a line break, and more tokens:
the statements of the first come before what the others are read as. -/
theorem ofTokens_joined (h : ofTokens ⟨tokens, none⟩ = .ok f)
    (hb : tokens.countP (·.kind == .blockStart) = tokens.countP (·.kind == .blockEnd))
    (ht : t.kind = .lineBreak) (second : TokenStream) :
    ofTokens (.behind (tokens ++ [t]) second) =
      (ofTokens second).map fun g => ⟨f.body ++ g.body⟩ := by
  obtain ⟨s, hfold, hfinish⟩ := ofTokens_eq_ok h
  -- braces balance, so all blocks that were opened are closed
  have hclosed : s.blocks = [] := by
    have hdepth := ReadState.depth_foldlM hfold
    rw [Runs.countP_complete .blockStart rfl, Runs.countP_complete .blockEnd rfl, hb] at hdepth
    apply List.eq_nil_of_length_eq_zero
    simpa using hdepth
  have hends : t.kind.endsStatement = true := by
    rw [ht]
    rfl
  show ReadState.readRest {} ⟨tokens ++ [t] ++ second.tokens, second.fault⟩ = _
  rw [List.append_assoc, List.singleton_append, ReadState.readRest_cut hends, ReadState.readTokens,
    hfold]
  -- up to the line break the joined tokens are read as the first ones, then as the second ones
  show s.step ⟨_, t⟩ >>= (fun s => s.readRest second) = _
  rw [ReadState.step_of_finish hfinish hclosed ht]
  show (ReadState.behind f.body.reverse {}).readRest second = _
  rw [ReadState.readRest_onto, List.reverse_reverse]
  rfl

/-- Tokens up to a line break that are refused stay refused when more tokens come. -/
theorem ofTokens_behind_error {fault : Fault} (h : ofTokens ⟨tokens ++ [t], none⟩ = .error fault)
    (ht : t.kind = .lineBreak) (second : TokenStream) :
    ofTokens (.behind (tokens ++ [t]) second) = .error fault := by
  have hends : t.kind.endsStatement = true := by
    rw [ht]
    rfl
  have halone := Runs.ofTokens_cut hends tokens []
  have hmore := Runs.ofTokens_cut hends tokens second.tokens
  have hlist : tokens ++ [t] ++ second.tokens = tokens ++ t :: second.tokens := by simp
  -- no statement is left behind the line break, so the fault is that of a complete run
  have hfold : List.foldlM ReadState.step {}
      ((Runs.ofTokens tokens).complete ++ [Run.mk (Runs.ofTokens tokens).last t]) =
        .error fault := by
    unfold ofTokens at h
    simp only [halone] at h
    cases hread : List.foldlM ReadState.step {} ((Runs.ofTokens tokens).complete ++
        Run.mk (Runs.ofTokens tokens).last t :: (Runs.ofTokens []).complete) with
    | error fault' =>
      rw [hread] at h
      cases h
      exact hread
    | ok s =>
      rw [hread] at h
      cases h
  unfold ofTokens TokenStream.behind
  simp only [hlist, hmore]
  rw [List.append_cons, List.foldlM_append, hfold]
  rfl

/-- A fault before a line feed is the fault of all texts that go on behind it. -/
theorem parse_feed_error {a : String} {fault : Fault} (h : parse (a ++ "\n") = .error fault)
    (b : String) : parse (a ++ "\n" ++ b) = .error fault := by
  cases hstream : TokenStream.ofText (a ++ "\n") with
  | mk tokens broken =>
    cases broken with
    | some f =>
      rw [parse, hstream] at h
      rw [parse, TokenStream.ofText_broken hstream, h]
    | none =>
      obtain ⟨front, t, second, rfl, ht, hjoined⟩ := TokenStream.ofText_complete hstream b
      rw [parse, hstream] at h
      rw [parse, hjoined]
      exact ofTokens_behind_error h ht second

/-- The result of reading a text with a line feed and another text behind it, up to places. -/
theorem moved_parse_joined {a : String} {first : RuleFile} {tokens : List Token}
    (h : parse a = .ok first) (htokens : tokenize a = .ok tokens)
    (hb : tokens.countP (·.kind == .blockStart) = tokens.countP (·.kind == .blockEnd))
    (b : String) :
    moved (fun _ => .start) (·.mapTokens Token.unplaced) (parse (a ++ "\n" ++ b)) =
      (moved (fun _ => .start) (·.mapTokens Token.unplaced) (parse b)).map
        fun g => ⟨(first.mapTokens Token.unplaced).body ++ g.body⟩ := by
  have hstream := tokenize_eq_ok_iff.mp htokens
  have hmove := ofTokens_move fun _ => .start
  -- places are dropped first: those of `b` are other ones behind `a`
  have hfirst : ofTokens ⟨tokens.map Token.unplaced, none⟩ =
      .ok (first.mapTokens Token.unplaced) := by
    have hmoved := hmove (TokenStream.ofText a)
    rw [show ofTokens (TokenStream.ofText a) = .ok first from h, hstream] at hmoved
    exact hmoved
  have hbraces : (tokens.map Token.unplaced).countP (·.kind == .blockStart) =
      (tokens.map Token.unplaced).countP (·.kind == .blockEnd) := by
    rw [List.countP_map, List.countP_map]
    exact hb
  have hsecond := hmove (TokenStream.ofText b)
  have hjoined : ofTokens (TokenStream.ofText (a ++ "\n" ++ b)).unplaced =
      (ofTokens (TokenStream.ofText b).unplaced).map
        fun g => ⟨(first.mapTokens Token.unplaced).body ++ g.body⟩ := by
    rw [TokenStream.unplaced_ofText_joined hstream]
    exact ofTokens_joined hfirst hbraces rfl _
  calc
    moved (fun _ => .start) (·.mapTokens Token.unplaced) (parse (a ++ "\n" ++ b))
      = ofTokens (TokenStream.ofText (a ++ "\n" ++ b)).unplaced := (hmove _).symm
    _ = (ofTokens (TokenStream.ofText b).unplaced).map _ := hjoined
    _ = (moved (fun _ => .start) (·.mapTokens Token.unplaced) (parse b)).map _ :=
      congrArg _ hsecond

/-- **Rule files are read line by line.**  A fault in the lines of `a` is the fault of every
text that begins with these lines.  When `a` is read and its braces balance, a text with the
lines of `b` behind it is read exactly when `b` is: it has the statements of `a`, then those of
`b`, up to the places of tokens; and otherwise it is refused for the reason `b` is. -/
theorem parse_joined (a b : String) :
    (∀ fault, parse (a ++ "\n") = .error fault → parse (a ++ "\n" ++ b) = .error fault) ∧
    ∀ first tokens, parse a = .ok first → tokenize a = .ok tokens →
      tokens.countP (·.kind == .blockStart) = tokens.countP (·.kind == .blockEnd) →
      (∀ second, parse b = .ok second → ∃ joined, parse (a ++ "\n" ++ b) = .ok joined ∧
        joined.mapTokens Token.unplaced =
          (RuleFile.mk (first.body ++ second.body)).mapTokens Token.unplaced) ∧
      ∀ fault, parse b = .error fault → ∃ fault', parse (a ++ "\n" ++ b) = .error fault' ∧
        fault'.cause = fault.cause := by
  refine ⟨fun fault h => parse_feed_error h b, ?_⟩
  intro first tokens hfirst htokens hb
  have hjoined := moved_parse_joined hfirst htokens hb b
  constructor
  · intro second hsecond
    rw [hsecond] at hjoined
    cases hread : parse (a ++ "\n" ++ b) with
    | error fault =>
      rw [hread] at hjoined
      cases hjoined
    | ok joined =>
      rw [hread] at hjoined
      refine ⟨joined, rfl, ?_⟩
      have hbody : joined.mapTokens Token.unplaced =
          ⟨(first.mapTokens Token.unplaced).body ++ (second.mapTokens Token.unplaced).body⟩ :=
        Except.ok.inj hjoined
      rw [hbody]
      simp [mapTokens]
  · intro fault hfault
    rw [hfault] at hjoined
    cases hread : parse (a ++ "\n" ++ b) with
    | error fault' =>
      rw [hread] at hjoined
      have hcause := congrArg Fault.cause (Except.error.inj hjoined)
      exact ⟨fault', rfl, hcause⟩
    | ok joined =>
      rw [hread] at hjoined
      cases hjoined

end RuleFile

end

namespace RuleFile

/-- A brace in a string, one in a comment, and a CR at the end. -/
def bracesSample : String := "a =>\x7b\rlog '\x7d' # \x7b\n\x7d\r"

/-- An unfinished statement before the line feed; and behind it a text that begins with a byte
order mark, and one that closes a block it did not open. -/
theorem parse_joined_bracesSample :
    (∃ fault, parse ("set $x" ++ "\n") = .error fault ∧
      parse ("set $x" ++ "\n" ++ "1") = .error fault) ∧
    ∃ first tokens, parse bracesSample = .ok first ∧ tokenize bracesSample = .ok tokens ∧
      tokens.countP (·.kind == .blockStart) = tokens.countP (·.kind == .blockEnd) ∧
      (∃ second joined, parse "\ufeffset $x 1" = .ok second ∧
        parse (bracesSample ++ "\n" ++ "\ufeffset $x 1") = .ok joined ∧
        joined.mapTokens Token.unplaced =
          (RuleFile.mk (first.body ++ second.body)).mapTokens Token.unplaced) ∧
      ∃ fault fault', parse "\x7d" = .error fault ∧
        parse (bracesSample ++ "\n" ++ "\x7d") = .error fault' ∧ fault'.cause = fault.cause := by
  obtain ⟨fault, hfault⟩ : ∃ fault, parse ("set $x" ++ "\n") = .error fault :=
    exists_fault (by decide +kernel)
  obtain ⟨first, hfirst, -⟩ : ∃ f, parse bracesSample = .ok f ∧ True :=
    exists_parse (by decide +kernel)
  have htokens : tokenize bracesSample = .ok (TokenStream.ofText bracesSample).tokens :=
    tokenize_eq_ok_iff.mpr (by decide +kernel)
  have hbraces : (TokenStream.ofText bracesSample).tokens.countP (·.kind == .blockStart) =
      (TokenStream.ofText bracesSample).tokens.countP (·.kind == .blockEnd) := by decide +kernel
  obtain ⟨second, hsecond, -⟩ : ∃ f, parse "\ufeffset $x 1" = .ok f ∧ True :=
    exists_parse (by decide +kernel)
  obtain ⟨stray, hstray⟩ : ∃ fault, parse "\x7d" = .error fault :=
    exists_fault (by decide +kernel)
  obtain ⟨joined, hjoined, hbody⟩ :=
    ((parse_joined bracesSample "\ufeffset $x 1").2 first _ hfirst htokens hbraces).1 second hsecond
  obtain ⟨fault', hfault', hcause⟩ :=
    ((parse_joined bracesSample "\x7d").2 first _ hfirst htokens hbraces).2 stray hstray
  exact ⟨⟨fault, hfault, (parse_joined "set $x" "1").1 fault hfault⟩, first, _, hfirst, htokens,
    hbraces, ⟨second, joined, hsecond, hjoined, hbody⟩, stray, fault', hstray, hfault', hcause⟩

end RuleFile

end HostRules
