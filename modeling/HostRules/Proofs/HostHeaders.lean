/-
HostRules/Proofs/HostHeaders.lean

A header with host names has two forms: `domain` in front of them, or an arrow behind.

    domain a.com, b.com {          a.com, b.com => {

Design.  The host names that a text writes are its longest stretches without separators, said by a
relation on the text (`WritesNames`) beside the function that finds them.  In both forms the same
tokens hold them, and they are judged alike (`Header.ofNames`).  A text in front of the header is
read to some state, in whatever blocks, and from there on both headers are one run; the text behind
is read from the state that the run leads to.  Tokens stand elsewhere in the two texts, so these
are compared without the places (`RuleFile.unplaced`).

Main result: `RuleFile.host_headers_agree`.
-/
import HostRules.Proofs.Edits
import HostRules.Proofs.Pulling
import HostRules.Regex.Standard

namespace HostRules

variable {tokens more front : List Token} {first t : Token}

/-! ### Host names in a text -/

namespace Header

/-- The host names that a text writes: its stretches without separators that go as far as they can,
in their order. -/
inductive WritesNames : List Char → List (List Char) → Prop
  | nil : WritesNames [] []
  | separator {c : Char} {cs : List Char} {names : List (List Char)} :
      separatesNames c = true → WritesNames cs names → WritesNames (c :: cs) names
  | name {name rest : List Char} {names : List (List Char)} :
      name ≠ [] → (∀ c ∈ name, separatesNames c = false) →
        (∀ c, rest.head? = some c → separatesNames c = true) → WritesNames rest names →
        WritesNames (name ++ rest) (name :: names)

/-- The host names that some tokens write, each of them in one token. -/
inductive WritesHosts : List Token → List String → Prop
  | nil : WritesHosts [] []
  | cons {t : Token} {more : List Token} {names : List (List Char)} {hosts : List String} :
      WritesNames t.value.toList names → WritesHosts more hosts →
        WritesHosts (t :: more) (names.map String.ofList ++ hosts)

/-- Every text writes host names, be it none. -/
theorem exists_writesNames (text : List Char) : ∃ names, WritesNames text names := by
  induction hlength : text.length using Nat.strongRecOn generalizing text with
  | ind n ih =>
    subst hlength
    cases text with
    | nil => exact ⟨[], .nil⟩
    | cons c cs =>
      by_cases hc : separatesNames c = true
      · obtain ⟨names, hnames⟩ := ih cs.length (Nat.lt_succ_self _) cs rfl
        exact ⟨names, .separator hc hnames⟩
      · -- the name goes up to the next separator
        let name := c :: cs.takeWhile (!separatesNames ·)
        let rest := cs.dropWhile (!separatesNames ·)
        have hless : rest.length < (c :: cs).length :=
          Nat.lt_succ_of_le (List.dropWhile_sublist _).length_le
        obtain ⟨names, hnames⟩ := ih rest.length hless rest rfl
        have hsplit : c :: cs = name ++ rest :=
          congrArg (c :: ·) List.takeWhile_append_dropWhile.symm
        rw [hsplit]
        refine ⟨name :: names, .name (List.cons_ne_nil _ _) ?_ ?_ hnames⟩
        · refine List.forall_mem_cons.mpr ⟨by simpa using hc, fun d hd => ?_⟩
          simpa using List.all_eq_true.mp List.all_takeWhile d hd
        · intro d hd
          simpa using not_of_head?_dropWhile hd

variable {p : Char → Bool} {text : List Char} {names : List (List Char)}

theorem splitAtChars_eq_splitOnP (p : Char → Bool) (text : List Char) :
    splitAtChars p text = text.splitOnP p := by
  induction text with
  | nil => simp [splitAtChars, List.splitOnP_nil]
  | cons c cs ih =>
    unfold splitAtChars at ih ⊢
    rw [List.foldr_cons, ih, List.splitOnP_cons_eq_if_modifyHead]
    split
    · rfl
    · obtain ⟨piece, pieces, hpieces⟩ := List.exists_cons_of_ne_nil (List.splitOnP_ne_nil p cs)
      rw [hpieces]
      rfl

/-- A separator divides the pieces before it from those behind it. -/
theorem splitAtChars_append_cons {c : Char} (hc : p c = true) (text rest : List Char) :
    splitAtChars p (text ++ c :: rest) = splitAtChars p text ++ splitAtChars p rest := by
  simp only [splitAtChars_eq_splitOnP]
  exact List.splitOnP_append_cons text rest hc

/-- The host names that a text writes are the pieces of it that are not empty. -/
theorem WritesNames.eq_split (h : WritesNames text names) :
    (splitAtChars separatesNames text).filter (!·.isEmpty) = names := by
  induction h with
  | nil => rfl
  | @separator c cs names hc _ ih =>
    rw [← List.nil_append (c :: cs), splitAtChars_append_cons hc, List.filter_append, ih]
    rfl
  | @name name rest names hne hname hrest _ ih =>
    -- the name is a piece by itself, cut from the rest by the separator behind it
    have hone : (splitAtChars separatesNames name).filter (!·.isEmpty) = [name] := by
      rw [splitAtChars_eq_singleton hname]
      simp [hne]
    cases rest with
    | nil =>
      obtain rfl : [] = names := ih
      rw [List.append_nil, hone]
    | cons c cs =>
      have hc : separatesNames c = true := hrest c rfl
      rw [← List.nil_append (c :: cs), splitAtChars_append_cons hc, List.filter_append] at ih
      rw [splitAtChars_append_cons hc, List.filter_append, hone, ← ih]
      rfl

theorem WritesNames.eq_namesIn {text : String} (h : WritesNames text.toList names) :
    namesIn text = names.map String.ofList := by
  rw [namesIn, h.eq_split]

theorem WritesHosts.eq_namesOf {hosts : List String} (h : WritesHosts tokens hosts) :
    hosts = namesOf tokens := by
  induction h with
  | nil => rfl
  | cons hnames _ ih =>
    rw [namesOf, List.flatMap_cons, hnames.eq_namesIn, ih]
    rfl

/-- The host names of some tokens are those that each of them writes. -/
theorem writesHosts_namesOf (tokens : List Token) : WritesHosts tokens (namesOf tokens) := by
  induction tokens with
  | nil => exact .nil
  | cons t more ih =>
    obtain ⟨names, hnames⟩ := exists_writesNames t.value.toList
    rw [namesOf, List.flatMap_cons, hnames.eq_namesIn]
    exact .cons hnames ih

/-! ### The two forms of a header -/

/-- Tokens that can hold the host names of a header in both of its forms. -/
structure HoldsNames (tokens : List Token) : Prop where
  ne_nil : tokens ≠ []
  inner : ∀ t ∈ tokens, t.Inner
  no_arrow : ∀ t ∈ tokens, t.kind ≠ .arrow
  first : ∀ t, tokens.head? = some t → t.kind ≠ .keyword .domain ∧ t.kind ≠ .keyword .location

variable {keyword arrow : Token}

theorem findIdx?_no_arrow (h : ∀ t ∈ tokens, t.kind ≠ .arrow) :
    tokens.findIdx? (·.kind == .arrow) = none := by
  rw [List.findIdx?_eq_none_iff]
  exact fun t ht => by simpa using h t ht

theorem nameTokens?_of_no_arrow (h : ∀ t ∈ first :: more, t.kind ≠ .arrow) :
    nameTokens? first more = some more := by
  rw [nameTokens?, findIdx?_no_arrow h]

theorem nameTokens?_of_arrow (h : ∀ t ∈ first :: more, t.kind ≠ .arrow)
    (harrow : arrow.kind = .arrow) (hfirst : first.kind ≠ .keyword .domain) :
    nameTokens? first (more ++ [arrow]) = some (first :: more) := by
  -- the first arrow is the last token
  have hlast : (first :: (more ++ [arrow])).findIdx? (·.kind == .arrow) =
      some (more.length + 1) := by
    rw [← List.cons_append, List.findIdx?_append, findIdx?_no_arrow h]
    simp [harrow]
  rw [nameTokens?, hlast]
  have hend : more.length + 1 = (more ++ [arrow]).length := by simp
  dsimp only
  rw [if_pos ⟨hend, hfirst⟩, ← List.cons_append]
  exact congrArg some (List.take_left' rfl)

/-- The text of a header with `domain` in front of the names. -/
def marked (names : String) : String := " domain " ++ names ++ " \x7b"

/-- The text of a header with an arrow behind the names. -/
def arrowed (names : String) : String := " " ++ names ++ " => \x7b"

end Header

/-! ### Headers in a text -/

namespace TokenStream

variable {a h : String}

theorem onlyGaps_space : OnlyGaps " ".toList := List.forall_mem_singleton.mpr (by decide)

theorem endsLast_space (h : ∀ t, tokens.getLast? = some t → t.kind ≠ .comment) (b : String) :
    EndsLast tokens (" " ++ b).toList := by
  rw [String.toList_append]
  refine .cons (by decide) fun hcomment => ?_
  obtain ⟨t, ht, hkind⟩ := Option.map_eq_some_iff.mp hcomment
  exact h t ht hkind

/-- A token that can be written, between two spaces. -/
theorem unplaced_ofText_spaced (ht : t.Writable) (raw : String) (hraw : raw.toList = t.write)
    (b : String) :
    (ofText (" " ++ (raw ++ (" " ++ b)))).unplaced = cons t.unplaced (ofText b).unplaced := by
  have hspells : Spells t.kind t.value.toList raw.toList (" " ++ b).toList := by
    rw [hraw, String.toList_append]
    refine ht _ fun c hc => ?_
    rw [← Option.some.inj hc]
    decide
  rw [unplaced_ofText_gap onlyGaps_space, unplaced_ofText_token hspells,
    unplaced_ofText_gap onlyGaps_space]

theorem unplaced_ofText_open (b : String) :
    (ofText ("\x7b" ++ b)).unplaced = cons .openBrace (ofText b).unplaced :=
  unplaced_ofText_token (t := .openBrace) .blockStart

/-- The tokens of a text with `domain` in front of names. -/
theorem unplaced_ofText_marked (ha : ofText a = ⟨front, none⟩)
    (hends : ∀ t, front.getLast? = some t → t.kind ≠ .comment) (hh : ofText h = ⟨tokens, none⟩)
    (hlast : ∀ t, tokens.getLast? = some t → t.kind ≠ .comment) (b : String) :
    (ofText (a ++ Header.marked h ++ b)).unplaced =
      (behind front
        (behind (.reserved .domain :: tokens ++ [.openBrace]) (ofText b))).unplaced := by
  have hsplit : a ++ Header.marked h ++ b =
      a ++ (" " ++ ("domain" ++ (" " ++ (h ++ (" " ++ ("\x7b" ++ b)))))) := by
    simp [Header.marked, ← String.toList_inj]
  rw [hsplit, unplaced_ofText_append ha (endsLast_space hends _),
    unplaced_ofText_spaced (Token.writable_reserved .domain) "domain" rfl,
    unplaced_ofText_append hh (endsLast_space hlast _), unplaced_ofText_gap onlyGaps_space,
    unplaced_ofText_open, unplaced_behind, unplaced_behind, List.map_append, List.map_cons]
  simp only [behind, cons, List.append_assoc]
  rfl

/-- The tokens of a text with an arrow behind names. -/
theorem unplaced_ofText_arrowed (ha : ofText a = ⟨front, none⟩)
    (hends : ∀ t, front.getLast? = some t → t.kind ≠ .comment) (hh : ofText h = ⟨tokens, none⟩)
    (hlast : ∀ t, tokens.getLast? = some t → t.kind ≠ .comment) (b : String) :
    (ofText (a ++ Header.arrowed h ++ b)).unplaced =
      (behind front (behind (tokens ++ [.arrow] ++ [.openBrace]) (ofText b))).unplaced := by
  have hsplit : a ++ Header.arrowed h ++ b =
      a ++ (" " ++ (h ++ (" " ++ ("=>" ++ (" " ++ ("\x7b" ++ b)))))) := by
    simp [Header.arrowed, ← String.toList_inj]
  rw [hsplit, unplaced_ofText_append ha (endsLast_space hends _),
    unplaced_ofText_gap onlyGaps_space, unplaced_ofText_append hh (endsLast_space hlast _),
    unplaced_ofText_spaced Token.writable_arrow "=>" rfl, unplaced_ofText_open, unplaced_behind,
    unplaced_behind, List.map_append, List.map_append]
  simp only [behind, cons, List.append_assoc]
  rfl

end TokenStream

section

variable [Regex.Dialect]

/-! ### Reading a header -/

namespace Header

variable {keyword arrow : Token} {parent : BlockKind} {brace : Position}

/-- The header for some host names. -/
def ofNames (place : Position) (parent : BlockKind) (names : List String) :
    Except Fault Header := do
  checkNesting .domain parent place
  if names.isEmpty then refuse (.unexpectedBlock parent.child?) place else return .domain names

/-- A header with `domain` in front of the names. -/
theorem read_marked (h : HoldsNames tokens) (hkeyword : keyword.kind = .keyword .domain) :
    read (keyword :: tokens) brace parent =
      ofNames keyword.span.start parent (namesOf tokens) := by
  obtain ⟨first, more, rfl⟩ := List.exists_cons_of_ne_nil h.ne_nil
  have hnone : ∀ t ∈ keyword :: first :: more, t.kind ≠ .arrow :=
    List.forall_mem_cons.mpr ⟨by rw [hkeyword]; nofun, h.no_arrow⟩
  have hlocation : keyword.kind ≠ .keyword .location := by
    rw [hkeyword]
    nofun
  simp only [read, if_neg hlocation, nameTokens?_of_no_arrow hnone, ofNames]

/-- A header with an arrow behind the names. -/
theorem read_arrowed (h : HoldsNames (first :: more)) (harrow : arrow.kind = .arrow) :
    read (first :: more ++ [arrow]) brace parent =
      ofNames first.span.start parent (namesOf (first :: more)) := by
  obtain ⟨hdomain, hlocation⟩ := h.first first rfl
  have hnames := nameTokens?_of_arrow h.no_arrow harrow hdomain
  obtain ⟨second, rest, hrest⟩ := List.exists_cons_of_ne_nil (l := more ++ [arrow]) (by simp)
  rw [List.cons_append, hrest]
  rw [hrest] at hnames
  simp only [read, if_neg hlocation, hnames, ofNames]

/-- The header of some names fits at the outermost level and needs one name. -/
theorem ofNames_eq (place : Position) (parent : BlockKind) (names : List String) :
    ofNames place parent names =
      if parent ≠ .global then .error ⟨.misnested .domain parent, place⟩
      else if names = [] then .error ⟨.unexpectedBlock (some .domain), place⟩
      else .ok (.domain names) := by
  unfold ofNames
  cases parent <;> cases names <;> rfl

end Header

/-! ### Reading behind a header -/

variable {s : ReadState} {stream stream' : TokenStream}

/-- What was read, at no place in particular: a rule file, or the cause of a fault. -/
def RuleFile.unplaced (result : Except Fault RuleFile) : Except Cause RuleFile :=
  (result.map (·.mapTokens Token.unplaced)).mapError (·.cause)

/-- Streams that are the same up to places are read alike. -/
theorem RuleFile.unplaced_ofTokens (h : stream.unplaced = stream'.unplaced) :
    unplaced (ofTokens stream) = unplaced (ofTokens stream') := by
  have hplaces : ∀ stream, unplaced (ofTokens stream.unplaced) = unplaced (ofTokens stream) := by
    intro stream
    rw [TokenStream.unplaced, ofTokens_move]
    cases ofTokens stream with
    | error fault => rfl
    | ok f => exact congrArg Except.ok (mapTokens_mapTokens _ _ f)
  rw [← hplaces stream, h, hplaces]

namespace ReadState

/-- Tokens of which the last ends a statement are read on their own. -/
theorem readRest_behind (h : ∀ t, front.getLast? = some t → t.kind.endsStatement = true)
    (stream : TokenStream) :
    s.readRest (.behind front stream) = s.readTokens front >>= fun s => s.readRest stream := by
  cases hlast : front.getLast? with
  | none =>
    obtain rfl := List.getLast?_eq_none_iff.mp hlast
    rfl
  | some t =>
    obtain ⟨tokens, rfl⟩ := List.getLast?_eq_some_iff.mp hlast
    have ht : t.kind.endsStatement = true := h t hlast
    have hread : s.readTokens (tokens ++ [t]) =
        s.readTokens tokens >>= fun s => s.step ⟨(Runs.ofTokens tokens).last, t⟩ := by
      unfold readTokens
      rw [Runs.ofTokens_cut ht, List.foldlM_append]
      exact congrArg (_ >>= ·) (funext fun s₁ => bind_pure (s₁.step _))
    show s.readRest ⟨(tokens ++ [t]) ++ stream.tokens, stream.fault⟩ = _
    rw [List.append_assoc, List.singleton_append, readRest_cut ht, hread, bind_assoc]

/-- The tokens of a header are read up to its brace, and the text behind it from there. -/
theorem readRest_header (h : ∀ t ∈ tokens, t.Inner) (stream : TokenStream) :
    s.readRest (.behind (tokens ++ [.openBrace]) stream) =
      Header.read tokens .start s.scope >>= fun header => (s.openBlock header).readRest stream := by
  show s.readRest ⟨(tokens ++ [.openBrace]) ++ stream.tokens, stream.fault⟩ = _
  rw [List.append_assoc, List.singleton_append, readRest_run (fun t ht => (h t ht).1) rfl]
  show (Header.read (withoutComments tokens) .start s.scope >>= fun header =>
    pure (s.openBlock header)) >>= _ = _
  rw [withoutComments_of_inner h, bind_assoc]
  rfl

/-- Outside of all blocks none is open. -/
theorem blocks_of_scope (h : s.scope = .global) : s.blocks = [] := by
  obtain ⟨blocks, body⟩ := s
  cases blocks with
  | nil => rfl
  | cons b outer =>
    have hkind : b.header.kind = .global := h
    cases hheader : b.header <;> rw [hheader] at hkind <;> cases hkind

/-- A file that is read from an open block on holds, behind the statements in front, that block with
the body that the text gives, and then what is read behind it. -/
theorem readRest_openBlock {header : Header} {text : String} {f : RuleFile}
    (hblocks : s.blocks = [])
    (h : (s.openBlock header).readRest (TokenStream.ofText text) = .ok f) :
    ∃ body after more, Supply.ofCursor.readBody header.kind [] (.ofText text) = .ok (body, after) ∧
      RuleFile.ofTokens (Supply.ofCursor.stream after) = .ok ⟨more⟩ ∧
      f = ⟨s.body.reverse ++ header.withBody body.reverse :: more⟩ := by
  obtain ⟨blocks, earlier⟩ := s
  obtain rfl : blocks = [] := hblocks
  have hstream : TokenStream.ofText text = Supply.ofCursor.stream (.ofText text) :=
    (Supply.stream_ofCursor _).symm
  rw [hstream, openBlock, Supply.readRest_eq rfl] at h
  obtain ⟨⟨body, after⟩, hbody, hrest⟩ := ok_of_bind h
  -- the block is a statement now, and what follows is read behind it
  have honto : (behind (header.withBody body.reverse :: earlier) {}).readRest
      (Supply.ofCursor.stream after) = .ok f := hrest
  rw [readRest_onto] at honto
  cases hmore : readRest {} (Supply.ofCursor.stream after) with
  | error fault =>
    rw [hmore] at honto
    cases honto
  | ok g =>
    rw [hmore] at honto
    refine ⟨body, after, g.body, hbody, hmore, ?_⟩
    rw [← Except.ok.inj honto]
    simp

end ReadState

/-! ### The two forms agree -/

namespace RuleFile

/-- Behind a text that leads to the state `s`, a header for some names is read. -/
theorem ofTokens_headed {header : List Token} {place : Position} {names : List String}
    (hends : ∀ t, front.getLast? = some t → t.kind.endsStatement = true)
    (hinner : ∀ t ∈ header, t.Inner)
    (hread : ∀ parent, Header.read header .start parent = Header.ofNames place parent names)
    (stream : TokenStream) :
    unplaced (ofTokens (.behind front (.behind (header ++ [.openBrace]) stream))) =
      match ReadState.readTokens {} front with
      | .error fault => .error fault.cause
      | .ok s =>
        if s.scope ≠ .global then .error (.misnested .domain s.scope)
        else if names = [] then .error (.unexpectedBlock (some .domain))
        else unplaced ((s.openBlock (.domain names)).readRest stream) := by
  show unplaced (ReadState.readRest {} _) = _
  rw [ReadState.readRest_behind hends]
  cases ReadState.readTokens {} front with
  | error fault => rfl
  | ok s =>
    show unplaced (s.readRest _) = _
    rw [ReadState.readRest_header hinner, hread, Header.ofNames_eq]
    dsimp only
    split
    · rfl
    · split <;> rfl

/-- **The two forms of a header agree.**  Tokens without an arrow that hold host names stand between
`domain` and an opening brace, or in front of an arrow and the brace, behind a text that leads into
some blocks, with any text behind.  Both are read as the same file, up to the places of its tokens,
or refused for the same cause.  The host names are the longest stretches without separators in the
values of the tokens, one token after the other.  Where the text in front is in order, the header is
refused inside of a block; then for want of a host name; and else the text behind is read inside a
block for these hosts.  So a file that is read holds the statements in front, then the block for
these hosts with the body that is read behind the header, then what is read behind that body. -/
theorem host_headers_agree {a h : String} (ha : tokenize a = .ok front)
    (hends : ∀ t, front.getLast? = some t → t.kind.endsStatement = true)
    (hh : tokenize h = .ok tokens) (hnames : Header.HoldsNames tokens) (b : String) :
    unplaced (parse (a ++ Header.marked h ++ b)) = unplaced (parse (a ++ Header.arrowed h ++ b)) ∧
    ∃ hosts, (∀ names, Header.WritesHosts tokens names ↔ names = hosts) ∧
      ∀ s, ReadState.readTokens {} front = .ok s →
        (unplaced (parse (a ++ Header.marked h ++ b)) =
          if s.scope ≠ .global then .error (.misnested .domain s.scope)
          else if hosts = [] then .error (.unexpectedBlock (some .domain))
          else unplaced ((s.openBlock (.domain hosts)).readRest (TokenStream.ofText b))) ∧
        ∀ f, parse (a ++ Header.marked h ++ b) = .ok f → ∃ body after more,
          Supply.ofCursor.readBody .domain [] (.ofText b) = .ok (body, after) ∧
          ofTokens (Supply.ofCursor.stream after) = .ok ⟨more⟩ ∧
          f.mapTokens Token.unplaced =
            (RuleFile.mk (s.body.reverse ++ .domain hosts body.reverse :: more)).mapTokens
              Token.unplaced := by
  have ha' := tokenize_eq_ok_iff.mp ha
  have hh' := tokenize_eq_ok_iff.mp hh
  have hfront : ∀ t, front.getLast? = some t → t.kind ≠ .comment := by
    intro t ht hcomment
    have hkind := hends t ht
    rw [hcomment] at hkind
    cases hkind
  have hlast : ∀ t, tokens.getLast? = some t → t.kind ≠ .comment :=
    fun t ht => (hnames.inner t (List.mem_of_getLast? ht)).2
  -- each text has the tokens of its parts, at other places
  have hmarked := unplaced_ofTokens (TokenStream.unplaced_ofText_marked ha' hfront hh' hlast b)
  have harrowed := unplaced_ofTokens (TokenStream.unplaced_ofText_arrowed ha' hfront hh' hlast b)
  obtain ⟨first, more, rfl⟩ := List.exists_cons_of_ne_nil hnames.ne_nil
  rw [ofTokens_headed hends (List.forall_mem_cons.mpr ⟨Token.inner_reserved .domain, hnames.inner⟩)
    (fun parent => Header.read_marked hnames rfl)] at hmarked
  have hinner : ∀ t ∈ first :: more ++ [.arrow], t.Inner := by
    intro t ht
    rcases List.mem_append.mp ht with ht | ht
    · exact hnames.inner t ht
    · rw [List.mem_singleton.mp ht]
      exact Token.inner_arrow
  rw [ofTokens_headed hends hinner (fun parent => Header.read_arrowed hnames rfl)] at harrowed
  refine ⟨hmarked.trans harrowed.symm, Header.namesOf (first :: more), ?_, ?_⟩
  · intro names
    refine ⟨Header.WritesHosts.eq_namesOf, ?_⟩
    rintro rfl
    exact Header.writesHosts_namesOf _
  · intro s hs
    rw [hs] at hmarked
    refine ⟨hmarked, fun f hf => ?_⟩
    rw [show ofTokens (TokenStream.ofText _) = .ok f from hf] at hmarked
    -- a file is read, so neither of the two faults of the header is there
    dsimp only at hmarked
    split at hmarked
    · cases hmarked
    · next hscope =>
      split at hmarked
      · cases hmarked
      · cases hrest : (s.openBlock (.domain (Header.namesOf (first :: more)))).readRest
            (TokenStream.ofText b) with
        | error fault =>
          rw [hrest] at hmarked
          cases hmarked
        | ok g =>
          rw [hrest] at hmarked
          have houtermost := ReadState.blocks_of_scope (Decidable.not_not.mp hscope)
          obtain ⟨body, after, more', hbody, hmore, rfl⟩ :=
            ReadState.readRest_openBlock houtermost hrest
          exact ⟨body, after, more', hbody, hmore, Except.ok.inj hmarked⟩

end RuleFile

end

namespace RuleFile

/-- Host names in a quoted string and behind it. -/
def quotedHosts : String := "'a,b c' ,d"

theorem holdsNames_quotedHosts : Header.HoldsNames (TokenStream.ofText quotedHosts).tokens where
  ne_nil := by decide +kernel
  inner := by
    show ∀ t ∈ (TokenStream.ofText quotedHosts).tokens, _ = false ∧ _ ≠ _
    decide +kernel
  no_arrow := by decide +kernel
  first := by
    intro t ht
    have hhead : (TokenStream.ofText quotedHosts).tokens.head?.map (·.kind) = some .quoted := by
      decide +kernel
    rw [ht] at hhead
    rw [show t.kind = .quoted from Option.some.inj hhead]
    exact ⟨nofun, nofun⟩

theorem host_headers_agree_quotedHosts :
    unplaced (parse ("set $x 1\n" ++ Header.marked quotedHosts ++ "log x \x7d")) =
      unplaced (parse ("set $x 1\n" ++ Header.arrowed quotedHosts ++ "log x \x7d")) ∧
    Header.WritesHosts (TokenStream.ofText quotedHosts).tokens ["a", "b", "c", "d"] ∧
    ∃ (s : ReadState) (f : RuleFile), s.scope = .global ∧
      unplaced (parse ("set $x 1\n" ++ Header.marked quotedHosts ++ "log x \x7d")) =
        unplaced ((s.openBlock (.domain ["a", "b", "c", "d"])).readRest
          (TokenStream.ofText "log x \x7d")) ∧
      parse ("set $x 1\n" ++ Header.marked quotedHosts ++ "log x \x7d") = .ok f ∧
      ∃ body after more,
        Supply.ofCursor.readBody .domain [] (.ofText "log x \x7d") = .ok (body, after) ∧
        ofTokens (Supply.ofCursor.stream after) = .ok ⟨more⟩ ∧
        f.mapTokens Token.unplaced =
          (RuleFile.mk (s.body.reverse ++
            .domain ["a", "b", "c", "d"] body.reverse :: more)).mapTokens Token.unplaced := by
  let front := (TokenStream.ofText "set $x 1\n").tokens
  let tokens := (TokenStream.ofText quotedHosts).tokens
  have hfront : tokenize "set $x 1\n" = .ok front := tokenize_eq_ok_iff.mpr (by decide +kernel)
  have htokens : tokenize quotedHosts = .ok tokens := tokenize_eq_ok_iff.mpr (by decide +kernel)
  have hends : ∀ t, front.getLast? = some t → t.kind.endsStatement = true := by
    have hlast : front.getLast?.all (·.kind.endsStatement) = true := by decide +kernel
    intro t ht
    rwa [ht] at hlast
  obtain ⟨hagree, hosts, hhosts, hread⟩ :=
    host_headers_agree hfront hends htokens holdsNames_quotedHosts "log x \x7d"
  have hwrites : Header.WritesHosts tokens ["a", "b", "c", "d"] := by
    have hvalues := Header.writesHosts_namesOf tokens
    rwa [show Header.namesOf tokens = ["a", "b", "c", "d"] by decide +kernel] at hvalues
  obtain rfl := (hhosts _).mp hwrites
  obtain ⟨s, hs, hscope⟩ : ∃ s, ReadState.readTokens {} front = .ok s ∧ s.scope = .global := by
    have hglobal : (ReadState.readTokens {} front).toOption.map (·.scope) = some .global := by
      decide +kernel
    cases hs : ReadState.readTokens {} front with
    | error fault =>
      rw [hs] at hglobal
      cases hglobal
    | ok s =>
      rw [hs] at hglobal
      exact ⟨s, rfl, Option.some.inj hglobal⟩
  obtain ⟨f, hf, -⟩ :
      ∃ f, parse ("set $x 1\n" ++ Header.marked quotedHosts ++ "log x \x7d") = .ok f ∧ True :=
    exists_parse (by decide +kernel)
  obtain ⟨houtcome, hblock⟩ := hread s hs
  rw [if_neg (fun hinside => hinside hscope), if_neg (by decide)] at houtcome
  exact ⟨hagree, hwrites, s, f, hscope, houtcome, hf, hblock f hf⟩

end RuleFile

end HostRules
