/-
HostRules/Proofs/Pulling.lean

Reading a file while its tokens come in.  A supply gives one token at a time; the tokens of a text
are one, a list of tokens is another.  The file is read from it by recursive descent: a body asks
for tokens up to the end of a statement, a block reads its own body before the body around it goes
on, and the first fault ends everything, so that nothing behind it is asked for.

    Supply.readFile S s = RuleFile.ofTokens (S.stream s)

Design.  The blocks that are open are those of the recursion here and those of the reading state
there.  Reading a body from a supply and then going on in the blocks around it
(`ReadState.resume`) is reading the rest of the file from the reading state
(`Supply.readRest_eq`); the proof is by the size of what the supply still holds, one run at a time.

Main result: what is read on demand is what the tokens of the finished text are read as, and a
fault of the text comes out as itself, unless one that stands before it does
(`RuleFile.parse_agrees`).
-/
import HostRules.Proofs.Coordinates
import HostRules.Regex.Standard

namespace HostRules

/-! ### Supplies of tokens -/

/-- Something that gives tokens one at a time: from each state the next token, or the end of the
tokens, with the state behind it, or a fault.  It comes to an end, and stays there. -/
structure Supply (σ : Type) where
  next : σ → Except Fault (Option Token × σ)
  size : σ → Nat
  next_shorter : ∀ {s t s'}, next s = .ok (some t, s') → size s' < size s
  end_shorter : ∀ {s s'}, next s = .ok (none, s') → size s' ≤ size s
  end_stays : ∀ {s s'}, next s = .ok (none, s') → ∃ s'', next s' = .ok (none, s'')

/-- The supply of a list of tokens. -/
def Supply.ofList : Supply (List Token) where
  next
    | [] => .ok (none, [])
    | t :: more => .ok (some t, more)
  size := List.length
  next_shorter := by
    intro tokens t more h
    cases tokens <;> cases h
    exact Nat.lt_succ_self _
  end_shorter := by
    intro tokens more h
    cases tokens <;> cases h
    exact Nat.le_refl _
  end_stays := by
    intro tokens more h
    cases tokens <;> cases h
    exact ⟨[], rfl⟩

/-- The next token of the text at a cursor. -/
def Cursor.nextToken (c : Cursor) : Except Fault (Option Token × Cursor) :=
  match c.step with
  | .finished after => .ok (none, after)
  | .token t after => .ok (some t, after)
  | .fault f _ => .error f

namespace Cursor

variable {c after : Cursor} {t : Token} {f : Fault}

theorem step_of_nextToken (h : c.nextToken = .ok (some t, after)) : c.step = .token t after := by
  unfold nextToken at h
  split at h <;> cases h
  assumption

theorem finished_of_nextToken (h : c.nextToken = .ok (none, after)) :
    c.step = .finished after := by
  unfold nextToken at h
  split at h <;> cases h
  assumption

theorem rest_of_finished (h : c.step = .finished after) : after.rest = [] := by
  unfold step at h
  split at h
  · next hread =>
    cases h
    exact Lexeme.read?_eq_none_iff.mp hread
  · next l _ =>
    unfold stepOver at h
    split at h <;> cases h

end Cursor

/-- The supply of the text behind a cursor. -/
def Supply.ofCursor : Supply Cursor where
  next := Cursor.nextToken
  size c := c.rest.length
  next_shorter h := Cursor.token_shorter (Cursor.step_of_nextToken h)
  end_shorter h := by
    rw [Cursor.rest_of_finished (Cursor.finished_of_nextToken h)]
    exact Nat.zero_le _
  end_stays := by
    intro c after h
    obtain ⟨position, rest⟩ := after
    obtain rfl : rest = [] := Cursor.rest_of_finished (Cursor.finished_of_nextToken h)
    exact ⟨_, rfl⟩

namespace Supply

variable {σ : Type} (S : Supply σ)

/-- All tokens from a state on, up to the end or the first fault. -/
def stream (s : σ) : TokenStream :=
  match _h : S.next s with
  | .error f => ⟨[], some f⟩
  | .ok (none, _) => ⟨[], none⟩
  | .ok (some t, s') => .cons t (stream s')
termination_by S.size s
decreasing_by exact S.next_shorter _h

/-! ### Reading on demand -/

/-- The tokens of a statement, the token that ends it if there is one, and the state behind. -/
structure Pulled (σ : Type) where
  tokens : List Token
  terminator : Option Token
  after : σ

/-- Asks for tokens up to one that ends the statement. -/
def pull (s : σ) : Except Fault { r : Pulled σ // S.size r.after ≤ S.size s ∧
    (r.terminator.isSome → S.size r.after < S.size s) } :=
  match h : S.next s with
  | .error f => .error f
  | .ok (none, s') => .ok ⟨⟨[], none, s'⟩, S.end_shorter h, nofun⟩
  | .ok (some t, s') =>
    have hs := S.next_shorter h
    if t.kind.endsStatement then .ok ⟨⟨[], some t, s'⟩, Nat.le_of_lt hs, fun _ => hs⟩
    else
      match pull s' with
      | .error f => .error f
      | .ok ⟨r, hr⟩ =>
        .ok ⟨⟨t :: r.tokens, r.terminator, r.after⟩, Nat.le_of_lt (Nat.lt_of_le_of_lt hr.1 hs),
          fun _ => Nat.lt_of_le_of_lt hr.1 hs⟩
termination_by S.size s

/-- The run that is pulled from a state. -/
def readRun (s : σ) : Except Fault (Pulled σ) := (S.pull s).map Subtype.val

section

variable {S} {s : σ}

/-! ### What a supply still holds -/

theorem size_readRun {r : Pulled σ} (h : S.readRun s = .ok r) :
    S.size r.after ≤ S.size s ∧ (r.terminator.isSome → S.size r.after < S.size s) := by
  unfold readRun at h
  cases hpull : S.pull s with
  | error f =>
    rw [hpull] at h
    cases h
  | ok r' =>
    rw [hpull] at h
    cases h
    exact r'.2

theorem stream_of_fault {f : Fault} (h : S.next s = .error f) : S.stream s = ⟨[], some f⟩ := by
  rw [stream]
  split <;> simp_all

theorem stream_of_end {s' : σ} (h : S.next s = .ok (none, s')) : S.stream s = ⟨[], none⟩ := by
  rw [stream]
  split <;> simp_all

theorem stream_of_token {t : Token} {s' : σ} (h : S.next s = .ok (some t, s')) :
    S.stream s = .cons t (S.stream s') := by
  rw [stream]
  split <;> simp_all

/-- A run is pulled one token at a time. -/
theorem readRun_eq : S.readRun s =
    match S.next s with
    | .error f => .error f
    | .ok (none, s') => .ok ⟨[], none, s'⟩
    | .ok (some t, s') =>
      if t.kind.endsStatement then .ok ⟨[], some t, s'⟩
      else (S.readRun s').map fun r => { r with tokens := t :: r.tokens } := by
  unfold readRun
  rw [pull]
  split
  · next h =>
    simp only [h]
    rfl
  · next h =>
    simp only [h]
    rfl
  · next t s' h =>
    simp only [h]
    split
    · rfl
    · cases S.pull s' <;> rfl

/-- The tokens of a pulled run are those that the supply gives up to there. -/
theorem readRun_describes (s : σ) :
    match S.readRun s with
    | .error f => ∃ tokens, (∀ t ∈ tokens, t.kind.endsStatement = false) ∧
        S.stream s = ⟨tokens, some f⟩
    | .ok ⟨tokens, none, after⟩ => (∀ t ∈ tokens, t.kind.endsStatement = false) ∧
        S.stream s = ⟨tokens, none⟩ ∧ S.stream after = ⟨[], none⟩
    | .ok ⟨tokens, some t, after⟩ => (∀ t ∈ tokens, t.kind.endsStatement = false) ∧
        t.kind.endsStatement = true ∧
        S.stream s = ⟨tokens ++ t :: (S.stream after).tokens, (S.stream after).fault⟩ := by
  -- along the tokens that the supply gives, as the stream takes them
  induction s using Supply.stream.induct S with
  | case1 s f h =>
    rw [readRun_eq, h]
    exact ⟨[], nofun, stream_of_fault h⟩
  | case2 s s' h =>
    -- the end is asked for again by the block that goes on behind this one
    obtain ⟨s'', hend⟩ := S.end_stays h
    rw [readRun_eq, h]
    exact ⟨nofun, stream_of_end h, stream_of_end hend⟩
  | case3 s t s' h ih =>
    rw [readRun_eq, h]
    dsimp only
    by_cases hends : t.kind.endsStatement = true
    · rw [if_pos hends]
      exact ⟨nofun, hends, stream_of_token h⟩
    · rw [if_neg hends]
      have ht : t.kind.endsStatement = false := by simpa using hends
      cases hrun : S.readRun s' with
      | error f =>
        rw [hrun] at ih
        obtain ⟨tokens, htokens, hstream⟩ := ih
        refine ⟨t :: tokens, List.forall_mem_cons.mpr ⟨ht, htokens⟩, ?_⟩
        rw [stream_of_token h, hstream]
        rfl
      | ok r =>
        obtain ⟨tokens, terminator, after⟩ := r
        rw [hrun] at ih
        cases terminator with
        | none =>
          obtain ⟨htokens, hstream, hafter⟩ := ih
          refine ⟨List.forall_mem_cons.mpr ⟨ht, htokens⟩, ?_, hafter⟩
          rw [stream_of_token h, hstream]
          rfl
        | some u =>
          obtain ⟨htokens, hu, hstream⟩ := ih
          refine ⟨List.forall_mem_cons.mpr ⟨ht, htokens⟩, hu, ?_⟩
          rw [stream_of_token h, hstream]
          rfl

theorem stream_ofList (tokens : List Token) : ofList.stream tokens = ⟨tokens, none⟩ := by
  induction tokens with
  | nil => exact stream_of_end (S := ofList) rfl
  | cons t tokens ih =>
    rw [stream_of_token (S := ofList) rfl, ih]
    rfl

theorem stream_ofCursor (c : Cursor) : ofCursor.stream c = TokenStream.ofSteps c.steps := by
  induction c using Cursor.steps.induct with
  | case1 c after h =>
    have hnext : c.nextToken = .ok (none, after) := by rw [Cursor.nextToken, h]
    rw [stream_of_end (S := ofCursor) hnext, Cursor.steps_of_finished h]
    rfl
  | case2 c t after h ih =>
    have hnext : c.nextToken = .ok (some t, after) := by rw [Cursor.nextToken, h]
    rw [stream_of_token (S := ofCursor) hnext, Cursor.steps_of_token h, ih]
    rfl
  | case3 c f after h _ =>
    have hnext : c.nextToken = .error f := by rw [Cursor.nextToken, h]
    rw [stream_of_fault (S := ofCursor) hnext, Cursor.steps_of_fault h]
    rfl

end

variable [Regex.Dialect]

/-! ### Reading a file on demand -/

/-- Reads on in a block of the kind `scope`, up to the brace that closes it or to the end, behind
the statements `body`, the last one first. -/
def pullBody (scope : BlockKind) (body : List Statement) (s : σ) :
    Except Fault { r : List Statement × σ // S.size r.2 ≤ S.size s } :=
  match S.pull s with
  | .error f => .error f
  | .ok ⟨⟨tokens, none, after⟩, hafter⟩ =>
    match Statement.read (withoutComments tokens) with
    | .error f => .error f
    | .ok st => .ok ⟨(st.toList ++ body, after), hafter.1⟩
  | .ok ⟨⟨tokens, some t, after⟩, hafter⟩ =>
    have hs : S.size after < S.size s := hafter.2 rfl
    match t.kind with
    | .blockStart =>
      match Header.read (withoutComments tokens) t.span.start scope with
      | .error f => .error f
      | .ok header =>
        match pullBody header.kind [] after with
        | .error f => .error f
        | .ok ⟨(inner, s'), hs'⟩ =>
          have hs'' : S.size s' < S.size s := Nat.lt_of_le_of_lt hs' hs
          match pullBody scope (header.withBody inner.reverse :: body) s' with
          | .error f => .error f
          | .ok ⟨r, hr⟩ => .ok ⟨r, Nat.le_of_lt (Nat.lt_of_le_of_lt hr hs'')⟩
    | .blockEnd =>
      if scope = .global then Header.refuse .unmatchedBlockEnd t.span.start
      else
        match Statement.read (withoutComments tokens) with
        | .error f => .error f
        | .ok st => .ok ⟨(st.toList ++ body, after), Nat.le_of_lt hs⟩
    | _ =>
      match Statement.read (withoutComments tokens) with
      | .error f => .error f
      | .ok st =>
        match pullBody scope (st.toList ++ body) after with
        | .error f => .error f
        | .ok ⟨r, hr⟩ => .ok ⟨r, Nat.le_of_lt (Nat.lt_of_le_of_lt hr hs)⟩
termination_by S.size s

/-- The body that is read from a state, and the state behind. -/
def readBody (scope : BlockKind) (body : List Statement) (s : σ) :
    Except Fault (List Statement × σ) := (S.pullBody scope body s).map Subtype.val

/-- Reads a rule file from a supply of tokens. -/
def readFile (s : σ) : Except Fault RuleFile :=
  (S.readBody .global [] s).map fun r => ⟨r.1.reverse⟩

variable {S} {scope : BlockKind} {body : List Statement} {s : σ}

/-- Reading a body, without the proofs that the supply shrinks. -/
theorem readBody_eq : S.readBody scope body s = (do
    let run ← S.readRun s
    let tokens := withoutComments run.tokens
    match run.terminator with
    | none =>
      let st ← Statement.read tokens
      return (st.toList ++ body, run.after)
    | some t =>
      match t.kind with
      | .blockStart =>
        let header ← Header.read tokens t.span.start scope
        let (inner, s') ← S.readBody header.kind [] run.after
        S.readBody scope (header.withBody inner.reverse :: body) s'
      | .blockEnd =>
        if scope = .global then Header.refuse .unmatchedBlockEnd t.span.start
        else
          let st ← Statement.read tokens
          return (st.toList ++ body, run.after)
      | _ =>
        let st ← Statement.read tokens
        S.readBody scope (st.toList ++ body) run.after) := by
  unfold readBody readRun
  rw [pullBody]
  -- step by step the same, with the proofs that the supply shrinks left out
  cases S.pull s with
  | error f => rfl
  | ok r =>
    obtain ⟨⟨tokens, terminator, after⟩, hafter⟩ := r
    simp only [Except.map, bind, Except.bind, pure, Except.pure]
    cases terminator with
    | none =>
      dsimp only
      cases Statement.read (withoutComments tokens) <;> rfl
    | some t =>
      dsimp only
      cases t.kind with
      | blockStart =>
        dsimp only
        cases Header.read (withoutComments tokens) t.span.start scope with
        | error f => rfl
        | ok header =>
          dsimp only
          cases S.pullBody header.kind [] after with
          | error f => rfl
          | ok r =>
            dsimp only
            cases S.pullBody scope (header.withBody r.1.1.reverse :: body) r.1.2 <;> rfl
      | blockEnd =>
        dsimp only
        by_cases hscope : scope = .global
        · rw [if_pos hscope, if_pos hscope]
          rfl
        · rw [if_neg hscope, if_neg hscope]
          cases Statement.read (withoutComments tokens) <;> rfl
      | _ =>
        dsimp only
        cases Statement.read (withoutComments tokens) with
        | error f => rfl
        | ok st =>
          dsimp only
          cases S.pullBody scope (st.toList ++ body) after <;> rfl

theorem size_readBody {r : List Statement × σ} (h : S.readBody scope body s = .ok r) :
    S.size r.2 ≤ S.size s := by
  unfold readBody at h
  cases hpull : S.pullBody scope body s with
  | error f =>
    rw [hpull] at h
    cases h
  | ok r' =>
    rw [hpull] at h
    cases h
    exact r'.2

/-! ### Reading on demand is reading the stream -/

/-- Goes on in the open blocks when the innermost body has been read. -/
def resume (S : Supply σ) : List OpenBlock → List Statement × σ → Except Fault RuleFile
  | [], r => .ok ⟨r.1.reverse⟩
  | b :: outer, r => ReadState.readRest ⟨outer, b.close r.1⟩ (S.stream r.2)

/-- At the end of the tokens all open blocks close. -/
theorem resume_of_end (h : S.stream s = ⟨[], none⟩) (blocks : List OpenBlock)
    (body : List Statement) :
    S.resume blocks (body, s) =
      .ok ⟨(blocks.foldl (fun body b => b.close body) body).reverse⟩ := by
  cases blocks with
  | nil => rfl
  | cons b outer =>
    show ReadState.readRest _ (S.stream s) = _
    rw [h]
    rfl

/-- From all states in which the supply holds less than `n`, the rest of a file is read alike. -/
def AgreesBelow (S : Supply σ) (n : Nat) : Prop :=
  ∀ {s scope body blocks}, S.size s < n → ReadState.scope ⟨blocks, body⟩ = scope →
    ReadState.readRest ⟨blocks, body⟩ (S.stream s) = S.readBody scope body s >>= S.resume blocks

/-- Behind an opening brace comes the body of the block, then the rest of the body around it. -/
theorem AgreesBelow.block {n : Nat} (ih : S.AgreesBelow n) (hless : S.size s < n)
    {blocks : List OpenBlock} (hscope : ReadState.scope ⟨blocks, body⟩ = scope) (header : Header) :
    ReadState.readRest ⟨⟨header, body⟩ :: blocks, []⟩ (S.stream s) =
      (S.readBody header.kind [] s >>= fun r =>
        S.readBody scope (header.withBody r.1.reverse :: body) r.2) >>= S.resume blocks := by
  -- the inner body is read with its block open, and it leaves less to read for the body around it
  have hinner : ReadState.readRest ⟨⟨header, body⟩ :: blocks, []⟩ (S.stream s) =
      S.readBody header.kind [] s >>= S.resume (⟨header, body⟩ :: blocks) := ih hless rfl
  rw [hinner]
  cases hread : S.readBody header.kind [] s with
  | error f => rfl
  | ok r => exact ih (Nat.lt_of_le_of_lt (size_readBody hread) hless) hscope

/-- Behind a closing brace the blocks around go on; where none is open it is refused. -/
theorem close_eq {b : OpenBlock} {outer : List OpenBlock}
    (hscope : ReadState.scope ⟨b :: outer, body⟩ = scope) (tokens : List Token) (place : Position) :
    (ReadState.addStatement ⟨b :: outer, body⟩ tokens >>=
        fun s => pure ⟨outer, b.close s.body⟩) >>=
          (fun s' : ReadState => s'.readRest (S.stream s)) =
      (if scope = .global then Header.refuse .unmatchedBlockEnd place
        else Statement.read tokens >>= fun st => pure (st.toList ++ body, s)) >>=
          S.resume (b :: outer) := by
  -- where a block is open, the scope is one of a block
  have hinside : scope ≠ .global := by
    rw [← hscope]
    show b.header.kind ≠ _
    cases b.header <;> nofun
  rw [if_neg hinside, ReadState.addStatement]
  cases Statement.read tokens <;> rfl

/-- Reading the rest of a file from a reading state is reading a body from the supply and then
going on in the blocks around it. -/
theorem readRest_eq {blocks : List OpenBlock} (hscope : ReadState.scope ⟨blocks, body⟩ = scope) :
    ReadState.readRest ⟨blocks, body⟩ (S.stream s) =
      S.readBody scope body s >>= S.resume blocks := by
  -- on what the supply still holds: a run makes it less, whatever ends the run; both readers take
  -- the same run, and then one case for each token that can end it
  induction hsize : S.size s using Nat.strongRecOn generalizing s scope body blocks with
  | ind n ih =>
  subst hsize
  have hbelow : S.AgreesBelow (S.size s) := fun hless hscope => ih _ hless hscope rfl
  have hd := readRun_describes (S := S) s
  rw [readBody_eq]
  cases hrun : S.readRun s with
  | error f =>
    rw [hrun] at hd
    obtain ⟨tokens, htokens, hstream⟩ := hd
    rw [hstream, ReadState.readRest_broken htokens]
    rfl
  | ok r =>
    obtain ⟨tokens, terminator, after⟩ := r
    rw [hrun] at hd
    cases terminator with
    | none =>
      -- the tokens end inside of a statement; the blocks that are open are closed
      obtain ⟨htokens, hstream, hafter⟩ := hd
      rw [hstream, ReadState.readRest_last htokens, ReadState.finish, ReadState.addStatement]
      show _ = (Statement.read (withoutComments tokens) >>= fun st =>
        pure (st.toList ++ body, after)) >>= S.resume blocks
      cases Statement.read (withoutComments tokens) with
      | error f => rfl
      | ok st => exact (resume_of_end hafter blocks (st.toList ++ body)).symm
    | some t =>
      obtain ⟨htokens, ht, hstream⟩ := hd
      have hless : S.size after < S.size s := (size_readRun hrun).2 rfl
      rw [hstream, ReadState.readRest_run htokens ht]
      obtain ⟨kind, value, span⟩ := t
      cases kind with
      | blockStart =>
        show (Header.read (withoutComments tokens) span.start (ReadState.scope ⟨blocks, body⟩) >>=
            fun header => pure (ReadState.openBlock ⟨blocks, body⟩ header)) >>=
              (fun s => ReadState.readRest s (S.stream after)) =
          (Header.read (withoutComments tokens) span.start scope >>= fun header =>
            S.readBody header.kind [] after >>= fun r =>
              S.readBody scope (header.withBody r.1.reverse :: body) r.2) >>= S.resume blocks
        rw [hscope]
        cases Header.read (withoutComments tokens) span.start scope with
        | error f => rfl
        | ok header => exact hbelow.block hless hscope header
      | blockEnd =>
        cases blocks with
        | nil =>
          obtain rfl : BlockKind.global = scope := hscope
          rfl
        | cons b outer => exact close_eq hscope (withoutComments tokens) span.start
      | _ =>
        show ReadState.addStatement ⟨blocks, body⟩ (withoutComments tokens) >>=
            (fun s => ReadState.readRest s (S.stream after)) =
          (Statement.read (withoutComments tokens) >>= fun st =>
            S.readBody scope (st.toList ++ body) after) >>= S.resume blocks
        rw [ReadState.addStatement]
        cases Statement.read (withoutComments tokens) with
        | error f => rfl
        | ok st => exact hbelow hless hscope

/-- A file that is read on demand is the file that the stream of tokens writes. -/
theorem readFile_eq (s : σ) : S.readFile s = RuleFile.ofTokens (S.stream s) := by
  have hrest : ReadState.readRest ⟨[], []⟩ (S.stream s) =
      S.readBody .global [] s >>= S.resume [] := readRest_eq rfl
  show _ = ReadState.readRest ⟨[], []⟩ (S.stream s)
  rw [hrest, readFile]
  cases S.readBody .global [] s <;> rfl

end Supply

/-! ### The order of faults -/

variable {p q : Position} {text left : List Char} {tokens : List Token} {t : Token} {f e : Fault}

/-- All tokens end before the text that they leave. -/
theorem Laid.stop_le (h : Laid p text tokens q left) :
    ∀ t ∈ tokens, t.span.stop.index ≤ q.index := by
  induction h with
  | nil => nofun
  | @cons _ _ _ rest t tokens q left _ _ _ _ hmore ih =>
    refine List.forall_mem_cons.mpr ⟨?_, ih⟩
    cases hmore with
    | nil => exact Nat.le_refl _
    | @cons _ gap raw rest u tokens _ _ _ _ hstart hstop _ =>
      have hu := ih u List.mem_cons_self
      have hle := congrArg Position.index hstart
      have hle' := congrArg Position.index hstop
      rw [Position.index_advance] at hle hle'
      omega

theorem BreaksOff.le_place (h : BreaksOff q left f) : q.index ≤ f.place.index := by
  obtain ⟨gap, quote, rest, -, -, -, -, rfl⟩ := h
  show q.index ≤ (q.advance gap (quote :: rest)).index
  rw [Position.index_advance]
  exact Nat.le_add_right _ _

/-- What is refused for a token stands before the fault that the tokens break off with. -/
theorem RefusedFor.index_lt {source : String}
    (h : RefusedFor (TokenStream.ofText source) f t)
    (he : (TokenStream.ofText source).fault = some e) : f.place.index < e.place.index := by
  obtain ⟨mark, body, -, -, hcursor⟩ := Cursor.standsAt_ofText source
  obtain ⟨hstands, -⟩ := hcursor.ofSteps
  have hless : ∀ u ∈ (TokenStream.ofText source).tokens,
      u.span.start.index < u.span.stop.index := by
    intro u hu
    obtain ⟨i, j, hu⟩ := hstands u hu
    exact hu.index_lt
  obtain ⟨q, left, hlaid, hbreaks⟩ := TokenStream.laid_ofSteps (Cursor.ofText source)
  rw [show (TokenStream.ofSteps _).fault = some e from he] at hbreaks
  have hends : ∀ u ∈ (TokenStream.ofText source).tokens, u.span.stop.index ≤ e.place.index :=
    fun u hu => Nat.le_trans (hlaid.stop_le u hu) hbreaks.le_place
  -- tokens do not overlap, and all of them stand before the string that is not closed
  have hpairs : (TokenStream.ofText source).tokens.Pairwise
      (·.span.stop.index ≤ ·.span.start.index) := hlaid.pairwise
  have hmem := h.mem
  obtain ⟨front, tokens, terminator, back, hamong, hblames⟩ := h
  rcases hblames.place with ⟨-, hstart⟩ | ⟨-, -, hstop, hinside⟩
  · rw [hstart]
    exact Nat.lt_of_lt_of_le (hless t hmem) (hends t hmem)
  · -- the tokens go on with the brace that ends the header
    cases terminator with
    | none => exact absurd (hamong.last rfl).2 (by rw [he]; nofun)
    | some brace =>
      have ht : t ∈ tokens := (List.mem_filter.mp hinside).1
      have hsplit := hamong.split
      have hbrace : brace ∈ (TokenStream.ofText source).tokens := by
        rw [hsplit]
        simp
      have hbefore : t.span.stop.index ≤ brace.span.start.index := by
        rw [hsplit] at hpairs
        obtain ⟨-, hpairs, -⟩ := List.pairwise_append.mp hpairs
        obtain ⟨-, -, hpairs⟩ := List.pairwise_append.mp hpairs
        exact hpairs t ht brace (by simp)
      rw [hstop]
      have hbrace_less := hless brace hbrace
      have hbrace_ends := hends brace hbrace
      omega

theorem RefusedFor.before {source : String}
    (h : RefusedFor (TokenStream.ofText source) f t)
    (he : (TokenStream.ofText source).fault = some e) : f.place.Before e.place := by
  obtain ⟨mark, body, -, -, hcursor⟩ := Cursor.standsAt_ofText source
  obtain ⟨hstands, hopens⟩ := hcursor.ofSteps
  obtain ⟨i, j, ht⟩ := hstands t h.mem
  obtain ⟨k, quote, hquote, -, -, hplace⟩ := hopens e he
  have hk : k ≤ body.length := by
    obtain ⟨hk, -⟩ := List.getElem?_eq_some_iff.mp hquote
    exact Nat.le_of_lt hk
  -- byte offsets are compared first; both places are characters of the text, where the orders agree
  have hindex := h.index_lt he
  have hat : ∃ n, n ≤ body.length ∧ f.place = .nth mark body n := by
    rcases h.place with ⟨-, hstart⟩ | ⟨-, -, hstop⟩
    · exact ⟨i, Nat.le_trans (Nat.le_of_lt ht.lt) ht.le, hstart.trans ht.start⟩
    · exact ⟨j, ht.le, hstop.trans ht.stop⟩
  obtain ⟨n, hn, hf⟩ := hat
  have he' : e.place = .nth mark body k := by rw [hplace]
  obtain ⟨hbefore, hless⟩ := Position.nth_before_iff mark hn hk
  rw [hf, he'] at hindex ⊢
  exact hbefore.mpr (hless.mp hindex)

/-! ### Whole texts -/

/-- **Reading on demand agrees with reading the finished tokens.**  A rule file is read by pulling
its tokens from the cursor.  If the tokens of the text break off at an unterminated string, the
file is refused for that string, or for a fault of another class that stands strictly before it.
If they do not, what is read is what the same reader makes of the finished list of tokens, and it
is never an unterminated string.  So only texts that have all their tokens are read. -/
theorem RuleFile.parse_agrees [Regex.Dialect] (source : String) :
    parse source = Supply.ofCursor.readFile (.ofText source) ∧
    (∀ e, tokenize source = .error e → ∃ f, parse source = .error f ∧
      (f = e ∨ f.cause.class? ≠ none ∧ f.place.Before e.place)) ∧
    (∀ tokens, tokenize source = .ok tokens →
      parse source = Supply.ofList.readFile tokens ∧
        ∀ f, parse source = .error f → f.cause.class? ≠ none) ∧
    (∀ file, parse source = .ok file → ∃ tokens, tokenize source = .ok tokens) := by
  have hbroken : ∀ e, tokenize source = .error e → ∃ f, parse source = .error f ∧
      (f = e ∨ f.cause.class? ≠ none ∧ f.place.Before e.place) := by
    intro e he
    obtain ⟨tokens, hstream⟩ := tokenize_eq_error_iff.mp he
    have hfault : (TokenStream.ofText source).fault = some e := by rw [hstream]
    cases hparse : parse source with
    | ok file =>
      -- a file that is read has no fault behind its tokens
      obtain ⟨s, -, hrest⟩ := ok_of_bind hparse
      rw [hfault] at hrest
      cases hrest
    | error f =>
      refine ⟨f, rfl, ?_⟩
      rcases refusedFor_of_ofTokens hparse with hf | ⟨t, ht⟩
      · exact Or.inl (Option.some.inj (hf.symm.trans hfault))
      · exact Or.inr ⟨ht.class?_ne_none, ht.before hfault⟩
  refine ⟨?_, hbroken, ?_, ?_⟩
  · rw [Supply.readFile_eq, Supply.stream_ofCursor]
    rfl
  · intro tokens htokens
    have hstream := tokenize_eq_ok_iff.mp htokens
    refine ⟨?_, ?_⟩
    · rw [Supply.readFile_eq, Supply.stream_ofList, parse, hstream]
    · intro f hf
      rcases refusedFor_of_ofTokens hf with hfault | ⟨t, ht⟩
      · rw [hstream] at hfault
        cases hfault
      · exact ht.class?_ne_none
  · intro file hfile
    cases htokens : tokenize source with
    | ok tokens => exact ⟨tokens, rfl⟩
    | error e =>
      obtain ⟨f, hf, -⟩ := hbroken e htokens
      rw [hfile] at hf
      cases hf

/-- A statement that is not complete, before a string that its line does not close. -/
def brokenSample : String := "set $x\nlog 'a\n"

/-- The incomplete statement is refused, and the string behind it is not reached. -/
theorem RuleFile.parse_agrees_brokenSample :
    ∃ e f, tokenize brokenSample = .error e ∧ e.cause = .unterminatedString '\'' ∧
      parse brokenSample = .error f ∧ f.cause = .incompleteVariable ∧
      f.place.Before e.place := by
  have hstream : TokenStream.ofText brokenSample =
      ⟨(TokenStream.ofText brokenSample).tokens,
        some ⟨.unterminatedString '\'', ⟨2, 5, 11⟩⟩⟩ := by decide +kernel
  have he := tokenize_eq_error_iff.mpr ⟨_, hstream⟩
  obtain ⟨f, hf, hagrees⟩ := (parse_agrees brokenSample).2.1 _ he
  have hcause : f.cause = .incompleteVariable := by
    have hread : (match parse brokenSample with
      | .ok _ => false
      | .error f => decide (f.cause = .incompleteVariable)) = true := by decide +kernel
    rw [hf] at hread
    exact of_decide_eq_true hread
  rcases hagrees with rfl | ⟨-, hbefore⟩
  · cases hcause
  · exact ⟨_, f, he, rfl, hf, hcause, hbefore⟩

end HostRules
