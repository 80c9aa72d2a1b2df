/-
HostRules/Proofs/Layout.lean

Layout does not change meaning.  Comments say nothing, `;` and line breaks separate statements in
the same way, and a separator says something only behind a statement, before another one or before
a block.  `withoutLayout` takes all the rest away; what is left tells the rule file, up to the
places of its tokens.

Design.  One separator less that says nothing is a step `Thins a b`.  Such a step keeps the file
that the tokens write (`Thins.ofTokens_eq`): only before a closing brace can it change anything at
all, namely which of two faults is found.  `thin` makes all the steps there are: it is reached by
steps (`reaches_thin`), no step leads on from it (`not_thins_thin`), and a step does not change it
(`Thins.thin_eq`), so that the order of the steps is of no account.

Main result: streams that differ in layout write the same rule file, or none both
(`TokenStream.reading_congr`).
-/
import HostRules.Proofs.Refusals
import Mathlib.Logic.Relation

namespace HostRules

/-! ### Separators -/

/-- Whether tokens of this kind only separate statements. -/
def TokenKind.separates : TokenKind → Bool
  | statementEnd | lineBreak => true
  | word | keyword _ | quoted | comment | blockStart | blockEnd | arrow => false

/-- A token with every separator the same. -/
def Token.uniform (t : Token) : Token := if t.kind.separates then .newline else t

/-- The tokens of a file that say something apart from places: no comments, and every separator
the same. -/
def visible (tokens : List Token) : List Token :=
  ((withoutComments tokens).map Token.uniform).map Token.unplaced

/-- Takes a separator from the front. -/
def dropSeparator : List Token → List Token
  | [] => []
  | t :: more => if t.kind.separates then more else t :: more

/-- Puts a token before thin tokens, a separator only where something follows that it separates.
Behind the end of a statement no separator is left. -/
def consThin (t : Token) (more : List Token) : List Token :=
  if t.kind.separates ∧ (more.head?.all (·.kind == .blockEnd)) then more
  else if t.kind.endsStatement then t :: dropSeparator more
  else t :: more

/-- Tokens without the separators that say nothing. -/
def thin (tokens : List Token) : List Token := dropSeparator (tokens.foldr consThin [])

/-- What the tokens of a file say: without comments and places, and with a separator only between
statements and before blocks. -/
def withoutLayout (tokens : List Token) : List Token := thin (visible tokens)

/-- One separator that says nothing is taken away: the first token, the last one, one behind the
end of a statement, or one before a closing brace. -/
inductive Thins : List Token → List Token → Prop
  | first {t : Token} {more : List Token} : t.kind.separates = true → Thins (t :: more) more
  | last {front : List Token} {t : Token} : t.kind.separates = true → Thins (front ++ [t]) front
  | behind {front more : List Token} {u t : Token} :
      u.kind.endsStatement = true → t.kind.separates = true →
        Thins (front ++ u :: t :: more) (front ++ u :: more)
  | before {front more : List Token} {t brace : Token} :
      t.kind.separates = true → brace.kind = .blockEnd →
        Thins (front ++ t :: brace :: more) (front ++ brace :: more)

variable {tokens more a b : List Token} {t u : Token}

theorem TokenKind.endsStatement_of_separates {kind : TokenKind} (h : kind.separates = true) :
    kind.endsStatement = true := by
  cases kind <;> first | rfl | cases h

/-! ### The steps and their end -/

theorem dropSeparator_cons (h : t.kind.separates = true) : dropSeparator (t :: more) = more := by
  rw [dropSeparator, if_pos h]

theorem dropSeparator_consThin (h : t.kind.separates = true) (more : List Token) :
    dropSeparator (consThin t more) = dropSeparator more := by
  unfold consThin
  split
  · rfl
  · rw [if_pos (TokenKind.endsStatement_of_separates h), dropSeparator_cons h]

/-- Behind the end of a statement a separator is dropped. -/
theorem consThin_consThin (hu : u.kind.endsStatement = true) (ht : t.kind.separates = true)
    (more : List Token) : consThin u (consThin t more) = consThin u more := by
  have hdrop := dropSeparator_consThin ht more
  by_cases hmore : more.head?.all (·.kind == .blockEnd)
  · have hsame : consThin t more = more := if_pos ⟨ht, hmore⟩
    rw [hsame]
  · -- both sides keep `u`, and no separator behind it
    have hkept : consThin t more = t :: dropSeparator more := by
      rw [consThin, if_neg fun hand => hmore hand.2,
        if_pos (TokenKind.endsStatement_of_separates ht)]
    have hhead : ¬ (consThin t more).head?.all (·.kind == .blockEnd) := by
      rw [hkept]
      intro hbrace
      rw [show t.kind = .blockEnd by simpa using hbrace] at ht
      cases ht
    rw [consThin, if_neg fun hand => hhead hand.2, if_pos hu, hdrop, consThin,
      if_neg fun hand => hmore hand.2, if_pos hu]

theorem consThin_before {brace : Token} (ht : t.kind.separates = true)
    (hbrace : brace.kind = .blockEnd) (more : List Token) :
    consThin t (consThin brace more) = consThin brace more := by
  -- a brace is no separator, so it is kept, in front of what it separates itself
  have hkept : consThin brace more = brace :: dropSeparator more := by
    rw [consThin, if_neg, if_pos (by rw [hbrace]; rfl)]
    rw [hbrace]
    nofun
  rw [hkept]
  exact if_pos ⟨ht, by simp [hbrace]⟩

/-- A step does not change the thin tokens. -/
theorem Thins.thin_eq (h : Thins a b) : thin a = thin b := by
  unfold thin
  cases h with
  | first ht => exact dropSeparator_consThin ht _
  | last ht =>
    rw [List.foldr_append, List.foldr_cons, List.foldr_nil, consThin, if_pos ⟨ht, rfl⟩]
  | behind hu ht =>
    rw [List.foldr_append, List.foldr_cons, List.foldr_cons, consThin_consThin hu ht,
      List.foldr_append, List.foldr_cons]
  | before ht hbrace =>
    rw [List.foldr_append, List.foldr_cons, List.foldr_cons, consThin_before ht hbrace,
      List.foldr_append, List.foldr_cons]

open Relation (ReflTransGen)

theorem reaches_consThin (front : List Token) (t : Token) (more : List Token) :
    ReflTransGen Thins (front ++ t :: more) (front ++ consThin t more) := by
  unfold consThin
  split
  · next hand =>
    -- `t` goes: it is the last token, or stands before a closing brace
    obtain ⟨ht, hmore⟩ := hand
    cases more with
    | nil =>
      rw [List.append_nil]
      exact .single (.last ht)
    | cons brace more => exact .single (.before ht (by simpa using hmore))
  · split
    · next hends =>
      cases more with
      | nil => exact .refl
      | cons u more =>
        rw [dropSeparator]
        split
        · next hu => exact .single (.behind hends hu)
        · exact .refl
    · exact .refl

/-- Thin tokens are reached step by step. -/
theorem reaches_thin (tokens : List Token) : ReflTransGen Thins tokens (thin tokens) := by
  -- the tokens are made thin from the back, behind a front that is still to come; the first one
  -- goes last
  have hfold : ∀ front,
      ReflTransGen Thins (front ++ tokens) (front ++ tokens.foldr consThin []) := by
    induction tokens with
    | nil => exact fun front => .refl
    | cons t tokens ih =>
      intro front
      have htail := ih (front ++ [t])
      rw [List.append_assoc, List.append_assoc] at htail
      exact htail.trans (reaches_consThin front t _)
  refine (hfold []).trans ?_
  show ReflTransGen Thins (tokens.foldr consThin []) (thin tokens)
  unfold thin
  cases tokens.foldr consThin [] with
  | nil => exact .refl
  | cons t more =>
    rw [dropSeparator]
    split
    · next ht => exact .single (.first ht)
    · exact .refl

theorem thin_eq_of_reaches (h : ReflTransGen Thins a b) : thin a = thin b := by
  induction h with
  | refl => rfl
  | tail _ hstep ih => exact ih.trans hstep.thin_eq

theorem Thins.length (h : Thins a b) : b.length + 1 = a.length := by
  cases h <;> simp [Nat.add_assoc]

theorem length_le_of_reaches (h : ReflTransGen Thins a b) : b.length ≤ a.length := by
  induction h with
  | refl => exact Nat.le_refl _
  | tail _ hstep ih =>
    have hlength := hstep.length
    omega

/-- No separator of thin tokens says nothing. -/
theorem not_thins_thin : ¬ Thins (thin a) b := by
  intro h
  -- a step keeps the thin tokens and takes one away, but thin tokens are reached from anything
  have hthin : thin b = thin a := by
    rw [← h.thin_eq, ← thin_eq_of_reaches (reaches_thin a)]
  have hless := length_le_of_reaches (reaches_thin b)
  have hlength := h.length
  rw [hthin] at hless
  omega

/-! ### Results without their faults -/

theorem toOption_bind {α β : Type} (x : Except Fault α) (k : α → Except Fault β) :
    (x >>= k).toOption = x.toOption.bind fun a => (k a).toOption := by
  cases x <;> rfl

theorem toOption_moved {α β : Type} (g : Position → Position) (φ : α → β) (x : Except Fault α) :
    (moved g φ x).toOption = x.toOption.map φ := by
  cases x <;> rfl

/-! ### Comments and the kinds of separators -/

theorem uniform_endsStatement (t : Token) :
    t.uniform.kind.endsStatement = t.kind.endsStatement := by
  unfold Token.uniform
  split
  · next ht => exact (TokenKind.endsStatement_of_separates ht).symm
  · rfl

theorem uniform_of_not_ends (h : t.kind.endsStatement = false) : t.uniform = t := by
  refine if_neg fun ht => ?_
  rw [TokenKind.endsStatement_of_separates ht] at h
  cases h

/-- A run without comments, and its terminator one of the same kind of separator. -/
def Run.visible (r : Run) : Run := ⟨withoutComments r.tokens, r.terminator.uniform⟩

/-- The runs of the visible tokens are the visible runs. -/
theorem Runs.ofTokens_visible (tokens : List Token) :
    Runs.ofTokens ((withoutComments tokens).map Token.uniform) =
      ⟨(Runs.ofTokens tokens).complete.map Run.visible,
        withoutComments (Runs.ofTokens tokens).last⟩ := by
  induction tokens with
  | nil => rfl
  | cons t tokens ih =>
    show _ = Runs.mk ((Runs.cons t (ofTokens tokens)).complete.map Run.visible)
      (withoutComments (Runs.cons t (ofTokens tokens)).last)
    -- a comment goes from its run; any other token ends a run when its uniform one does
    by_cases hcomment : t.kind = .comment
    · have hskip : withoutComments (t :: tokens) = withoutComments tokens := by
        simp [withoutComments, hcomment]
      rw [hskip, ih, Runs.cons, hcomment]
      cases (ofTokens tokens).complete with
      | nil => simp [withoutComments, hcomment, TokenKind.endsStatement]
      | cons run runs => simp [withoutComments, hcomment, TokenKind.endsStatement, Run.visible]
    · have hkeep : withoutComments (t :: tokens) = t :: withoutComments tokens := by
        simp [withoutComments, hcomment]
      rw [hkeep, List.map_cons]
      show Runs.cons t.uniform (ofTokens _) = _
      rw [ih, Runs.cons, Runs.cons, uniform_endsStatement]
      split
      · rfl
      · next hends =>
        have ht : t.uniform = t := uniform_of_not_ends (by simpa using hends)
        rw [ht]
        cases (ofTokens tokens).complete with
        | nil => simp [withoutComments, hcomment]
        | cons run runs => simp [withoutComments, hcomment, Run.visible]

theorem visible_append (tokens more : List Token) :
    visible (tokens ++ more) = visible tokens ++ visible more := by
  simp [visible, withoutComments]

theorem visible_unplaced (tokens : List Token) :
    visible (tokens.map Token.unplaced) = visible tokens := by
  have huniform : ∀ t : Token, t.unplaced.uniform.unplaced = t.uniform.unplaced := by
    intro t
    unfold Token.uniform
    show Token.unplaced (if t.kind.separates then .newline else t.unplaced) = _
    split <;> rfl
  have hcomments : withoutComments (tokens.map Token.unplaced) =
      (withoutComments tokens).map Token.unplaced := withoutComments_move tokens
  unfold visible
  rw [hcomments, List.map_map, List.map_map, List.map_map]
  refine List.map_congr_left fun t _ => huniform t

theorem visible_congr (h : a.map Token.unplaced = b.map Token.unplaced) :
    visible a = visible b := by
  rw [← visible_unplaced a, h, visible_unplaced]

theorem visible_separator (h : t.kind.separates = true) : visible [t] = [.newline] := by
  obtain ⟨kind, value, span⟩ := t
  cases kind <;> first | rfl | cases h

theorem visible_comment (h : t.kind = .comment) : visible [t] = [] := by
  simp [visible, withoutComments, h]

theorem visible_cut (h : t.kind.separates = true) (tokens more : List Token) :
    visible (tokens ++ t :: more) = visible tokens ++ .newline :: visible more := by
  rw [← List.singleton_append, visible_append, visible_append, visible_separator h]
  rfl

variable [Regex.Dialect] {s : ReadState}

theorem ReadState.step_visible (s : ReadState) (run : Run) : s.step run.visible = s.step run := by
  obtain ⟨tokens, kind, value, span⟩ := run
  have hsame : withoutComments (withoutComments tokens) = withoutComments tokens := by
    simp [withoutComments]
  unfold step Run.visible
  simp only [hsame]
  cases kind <;> rfl

/-- Reading does not look at comments, and a line break separates as `;` does. -/
theorem RuleFile.ofTokens_visible (tokens : List Token) (fault : Option Fault) :
    ofTokens ⟨(withoutComments tokens).map Token.uniform, fault⟩ = ofTokens ⟨tokens, fault⟩ := by
  have hstep : (fun s (run : Run) => ReadState.step s run.visible) = ReadState.step := by
    funext s run
    exact s.step_visible run
  have hfinish : ∀ (s : ReadState) (last : List Token),
      s.finish (withoutComments last) = s.finish last := by
    intro s last
    simp [ReadState.finish, withoutComments]
  unfold ofTokens
  simp only [Runs.ofTokens_visible, List.foldlM_map, hstep, hfinish]

/-! ### Separators that say nothing -/

namespace ReadState

/-- A separator ends a statement and does nothing else. -/
theorem step_separator (ht : t.kind.separates = true) (tokens : List Token) :
    s.step ⟨tokens, t⟩ = s.addStatement (withoutComments tokens) := by
  obtain ⟨kind, value, span⟩ := t
  cases kind <;> first | rfl | cases ht

theorem readRest_cons (ht : t.kind.endsStatement = true) (fault : Option Fault) :
    s.readRest ⟨t :: more, fault⟩ = s.step ⟨[], t⟩ >>= fun s => s.readRest ⟨more, fault⟩ := by
  show s.readRest ⟨[] ++ t :: more, fault⟩ = _
  exact readRest_run (List.forall_mem_nil _) ht fault

/-- Where no statement stands before it, a separator does nothing. -/
theorem readRest_separator (ht : t.kind.separates = true) (fault : Option Fault) :
    s.readRest ⟨t :: more, fault⟩ = s.readRest ⟨more, fault⟩ := by
  rw [readRest_cons (TokenKind.endsStatement_of_separates ht), step_separator ht]
  rfl

/-- A closing brace reads the statement before it, or finds that it closes no block; either way
there is no file without the statement. -/
theorem addStatement_close {brace : Token} (hbrace : brace.kind = .blockEnd) (last : List Token) :
    (s.addStatement (withoutComments last) >>= fun s => s.step ⟨[], brace⟩).toOption =
      (s.step ⟨last, brace⟩).toOption := by
  obtain ⟨kind, value, span⟩ := brace
  obtain rfl : kind = .blockEnd := hbrace
  obtain ⟨blocks, body⟩ := s
  -- the statement is read by the `;` or by the brace; the brace then finds the block it closes
  cases hadd : addStatement ⟨blocks, body⟩ (withoutComments last) with
  | error f =>
    cases blocks with
    | nil => rfl
    | cons b outer =>
      have hstep : step ⟨b :: outer, body⟩ ⟨last, .blockEnd, value, span⟩ =
        addStatement ⟨b :: outer, body⟩ (withoutComments last) >>= _ := rfl
      rw [hstep, hadd]
      rfl
  | ok s' =>
    obtain ⟨blocks', body'⟩ := s'
    obtain rfl : blocks' = blocks := blocks_addStatement hadd
    cases blocks' with
    | nil => rfl
    | cons b outer =>
      have hstep : step ⟨b :: outer, body⟩ ⟨last, .blockEnd, value, span⟩ =
        addStatement ⟨b :: outer, body⟩ (withoutComments last) >>= _ := rfl
      rw [hstep, hadd]
      rfl

end ReadState

/-- A step keeps the file that the tokens write. -/
theorem Thins.ofTokens_eq (h : Thins a b) :
    (RuleFile.ofTokens ⟨a, none⟩).toOption = (RuleFile.ofTokens ⟨b, none⟩).toOption := by
  show (ReadState.readRest {} ⟨a, none⟩).toOption = (ReadState.readRest {} ⟨b, none⟩).toOption
  -- cut where the separator stands, reading is the same up to there
  cases h with
  | first ht => rw [ReadState.readRest_separator ht]
  | @last _ t ht =>
    rw [ReadState.readRest_cut (TokenKind.endsStatement_of_separates ht), ReadState.readRest]
    simp only [ReadState.step_separator ht]
    rfl
  | behind hu ht =>
    rw [ReadState.readRest_cut hu, ReadState.readRest_cut hu]
    simp only [ReadState.readRest_separator ht]
  | @before front more t brace ht hbrace =>
    -- only here the faults may differ: a brace that closes no block is found before the statement
    -- in front of it is read
    have hends : brace.kind.endsStatement = true := by
      rw [hbrace]
      rfl
    rw [ReadState.readRest_cut (TokenKind.endsStatement_of_separates ht),
      ReadState.readRest_cut hends, toOption_bind, toOption_bind]
    congr 1
    funext s
    rw [ReadState.step_separator ht, toOption_bind (s.step _), ← s.addStatement_close hbrace,
      ← toOption_bind, bind_assoc]
    simp only [ReadState.readRest_cons hends]

theorem ofTokens_eq_of_reaches (h : ReflTransGen Thins a b) :
    (RuleFile.ofTokens ⟨a, none⟩).toOption = (RuleFile.ofTokens ⟨b, none⟩).toOption := by
  induction h with
  | refl => rfl
  | tail _ hstep ih => exact ih.trans hstep.ofTokens_eq

/-! ### What a stream says -/

/-- The rule file that a stream of tokens writes, at no place in particular. -/
def TokenStream.reading (stream : TokenStream) : Option RuleFile :=
  (RuleFile.ofTokens stream).toOption.map (·.mapTokens Token.unplaced)

namespace TokenStream

theorem reading_unplaced (stream : TokenStream) :
    (RuleFile.ofTokens stream.unplaced).toOption = stream.reading := by
  rw [unplaced, RuleFile.ofTokens_move, toOption_moved]
  rfl

/-- What is left without layout tells the rule file. -/
theorem reading_eq (tokens : List Token) :
    reading ⟨tokens, none⟩ = (RuleFile.ofTokens ⟨withoutLayout tokens, none⟩).toOption := by
  rw [withoutLayout, ← ofTokens_eq_of_reaches (reaches_thin _), reading,
    ← RuleFile.ofTokens_visible]
  exact (reading_unplaced ⟨(withoutComments tokens).map Token.uniform, none⟩).symm

theorem reading_of_fault {stream : TokenStream} {f : Fault} (h : stream.fault = some f) :
    stream.reading = none := by
  unfold reading
  cases hread : RuleFile.ofTokens stream with
  | error fault => rfl
  | ok file =>
    obtain ⟨s, -, hrest⟩ := ok_of_bind hread
    rw [h] at hrest
    cases hrest

/-- Streams that differ in layout write the same rule file, or none both. -/
theorem reading_congr {stream stream' : TokenStream}
    (h : withoutLayout stream.tokens = withoutLayout stream'.tokens)
    (hfault : stream.fault.isSome = stream'.fault.isSome) : stream.reading = stream'.reading := by
  obtain ⟨tokens, fault⟩ := stream
  obtain ⟨tokens', fault'⟩ := stream'
  -- a stream with a fault writes no file, whatever its tokens are
  cases fault with
  | some f =>
    obtain ⟨f', hf'⟩ := Option.isSome_iff_exists.mp hfault.symm
    rw [reading_of_fault rfl, reading_of_fault hf']
  | none =>
    obtain rfl : fault' = none := by simpa using hfault.symm
    rw [reading_eq, reading_eq, h]

end TokenStream

theorem TokenStream.reading_of_unplaced {stream stream' : TokenStream}
    (h : stream.unplaced = stream'.unplaced) : stream.reading = stream'.reading := by
  rw [← reading_unplaced, h, reading_unplaced]

/-- Streams whose visible tokens are the same, or become the same by steps, are read alike. -/
theorem TokenStream.reading_eq_of_reaches {stream stream' : TokenStream}
    (h : ReflTransGen Thins (visible stream.unplaced.tokens) (visible stream'.unplaced.tokens))
    (hfault : stream.unplaced.fault = stream'.unplaced.fault) :
    stream.reading = stream'.reading := by
  refine reading_congr ?_ ?_
  · have hthin := thin_eq_of_reaches h
    show thin (visible stream.tokens) = thin (visible stream'.tokens)
    rw [← visible_unplaced, ← visible_unplaced stream'.tokens]
    exact hthin
  · have hsome := congrArg Option.isSome hfault
    simpa [unplaced, move] using hsome

end HostRules
