/-
HostRules/Proofs/RoundTrip.lean

Reading the canonical text of a rule file gives the rule file back.  The tokens of the text
are read run by run (`readTokens_run`); a statement adds itself to the body being read, and a
block opens, reads its own body and closes again, so that the reading state behind a
statement is the one before it with one statement more (`readTokens_lines`).

Main result: `parse_print`.  Only the kinds and the places of tokens are lost on the way,
since every text is read as a quoted string at its place in the canonical text.
-/
import HostRules.Proofs.Printer
import HostRules.Regex.Standard

namespace HostRules

variable {t : Token} {tokens more : List Token}

/-! ### Tokens of lines -/

/-- A token as a quoted string with its value. -/
def Token.quoting (t : Token) : Token := .string t.value

/-- A token with nothing but its value. -/
def Token.plain (t : Token) : Token := .bare .word t.value

/-- A token that belongs to a statement: neither a comment nor the end of a run. -/
def Token.Inner (t : Token) : Prop := t.kind.endsStatement = false ∧ t.kind ≠ .comment

theorem Token.inner_string (text : String) : (string text).Inner := ⟨rfl, nofun⟩

theorem Token.inner_reserved (k : Keyword) : (reserved k).Inner := ⟨rfl, nofun⟩

theorem Token.inner_arrow : arrow.Inner := ⟨rfl, nofun⟩

theorem Token.inner_tilde : tilde.Inner := ⟨rfl, nofun⟩

theorem Token.inner_strings {α : Type} (f : α → String) (texts : List α) :
    ∀ t ∈ texts.map (fun a => string (f a)), t.Inner := by
  intro t ht
  obtain ⟨a, _, rfl⟩ := List.mem_map.mp ht
  exact inner_string (f a)

theorem withoutComments_of_inner (h : ∀ t ∈ tokens, t.Inner) : withoutComments tokens = tokens := by
  refine List.filter_eq_self.mpr fun t ht => ?_
  simpa using (h t ht).2

/-- Tokens up to one that ends a statement are a run. -/
theorem Runs.ofTokens_run (h : ∀ t ∈ tokens, t.kind.endsStatement = false)
    (ht : t.kind.endsStatement = true) :
    Runs.ofTokens (tokens ++ t :: more) =
      ⟨⟨tokens, t⟩ :: (Runs.ofTokens more).complete, (Runs.ofTokens more).last⟩ := by
  induction tokens with
  | nil =>
    show Runs.cons t (Runs.ofTokens more) = _
    rw [Runs.cons, if_pos ht]
  | cons t' tokens ih =>
    obtain ⟨ht', htokens⟩ := List.forall_mem_cons.mp h
    show Runs.cons t' (Runs.ofTokens (tokens ++ t :: more)) = _
    rw [ih htokens, Runs.cons, ht']
    rfl

/-- Tokens before a complete run are in complete runs. -/
theorem Runs.last_append (tokens : List Token) (h : (Runs.ofTokens more).complete ≠ []) :
    (Runs.ofTokens (tokens ++ more)).last = (Runs.ofTokens more).last ∧
      (Runs.ofTokens (tokens ++ more)).complete ≠ [] := by
  induction tokens with
  | nil => exact ⟨rfl, h⟩
  | cons t tokens ih =>
    show (Runs.cons t (Runs.ofTokens (tokens ++ more))).last = _ ∧
      (Runs.cons t (Runs.ofTokens (tokens ++ more))).complete ≠ []
    obtain ⟨hlast, hne⟩ := ih
    obtain ⟨run, runs, hruns⟩ := List.exists_cons_of_ne_nil hne
    unfold Runs.cons
    rw [hruns]
    split
    · exact ⟨hlast, List.cons_ne_nil _ _⟩
    · exact ⟨hlast, List.cons_ne_nil _ _⟩

theorem Runs.last_lineTokens (lines : List (List Token)) :
    (Runs.ofTokens (lineTokens lines)).last = [] := by
  induction lines with
  | nil => rfl
  | cons line lines ih =>
    have hsplit : lineTokens (line :: lines) = line ++ .newline :: lineTokens lines := by
      simp [lineTokens]
    have hne : (Runs.ofTokens (.newline :: lineTokens lines)).complete ≠ [] :=
      List.cons_ne_nil _ _
    rw [hsplit, (Runs.last_append line hne).1]
    exact ih

/-! ### Names and operands -/

namespace Header

theorem splitAtChars_eq_singleton {p : Char → Bool} {text : List Char}
    (h : ∀ c ∈ text, p c = false) : splitAtChars p text = [text] := by
  induction text with
  | nil => rfl
  | cons c cs ih =>
    obtain ⟨hc, hcs⟩ := List.forall_mem_cons.mp h
    have hrest := ih hcs
    unfold splitAtChars at hrest ⊢
    rw [List.foldr_cons, hrest, hc]
    rfl

/-- A host name is the one name in its text. -/
theorem namesIn_hostName {name : String} (h : HostName name) : namesIn name = [name] := by
  have hne : name.toList.isEmpty = false := by
    simpa [List.isEmpty_eq_false_iff] using h.1
  simp [namesIn, splitAtChars_eq_singleton h.2, hne]

theorem namesOf_strings {names : List String} (h : ∀ name ∈ names, HostName name) :
    namesOf (names.map Token.string) = names := by
  induction names with
  | nil => rfl
  | cons name names ih =>
    obtain ⟨hname, hnames⟩ := List.forall_mem_cons.mp h
    rw [List.map_cons, namesOf, List.flatMap_cons]
    show namesIn name ++ namesOf (names.map Token.string) = _
    rw [namesIn_hostName hname, ih hnames]
    rfl

theorem nameTokens?_strings (names : List String) :
    nameTokens? (.reserved .domain) (names.map Token.string) =
      some (names.map Token.string) := by
  have hnone : (Token.reserved .domain :: names.map Token.string).findIdx?
      (·.kind == .arrow) = none := by
    rw [List.findIdx?_eq_none_iff]
    intro t ht
    rcases List.mem_cons.mp ht with rfl | ht
    · rfl
    · obtain ⟨name, _, rfl⟩ := List.mem_map.mp ht
      rfl
  -- without an arrow in the header all the tokens behind `domain` are names
  rw [nameTokens?, hnone]

end Header

namespace Statement

theorem no_arrow (texts : List String) (h : ∀ text ∈ texts, text ≠ "=>") :
    (texts.map Token.string).any (·.value == "=>") = false := by
  rw [List.any_map, List.any_eq_false]
  intro text htext
  simpa [Token.string, Token.bare] using h text htext

theorem map_string_value (tokens : List Token) :
    tokens.map (.string ·.value) = (tokens.map (·.value)).map Token.string := by
  rw [List.map_map]
  rfl

end Statement

section

variable [Regex.Dialect] {s : ReadState}

/-! ### Reading tokens -/

/-- Reads the complete runs of some tokens from a state on. -/
def ReadState.readTokens (s : ReadState) (tokens : List Token) : Except Fault ReadState :=
  (Runs.ofTokens tokens).complete.foldlM ReadState.step s

theorem ReadState.readTokens_run (h : ∀ t ∈ tokens, t.kind.endsStatement = false)
    (ht : t.kind.endsStatement = true) :
    s.readTokens (tokens ++ t :: more) = s.step ⟨tokens, t⟩ >>= fun s => s.readTokens more := by
  rw [readTokens, Runs.ofTokens_run h ht, List.foldlM_cons]
  rfl

theorem ReadState.readTokens_newline : s.readTokens (.newline :: more) = s.readTokens more := by
  show s.readTokens ([] ++ .newline :: more) = _
  rw [readTokens_run (List.forall_mem_nil _) rfl]
  rfl

/-! ### Lines -/

namespace ReadState

/-- A line that writes a statement adds it to the body being read. -/
theorem readTokens_line {st : Statement} (h : ∀ t ∈ tokens, t.Inner)
    (hr : Statement.read tokens = .ok (some st)) :
    s.readTokens (tokens ++ .newline :: more) =
      readTokens { s with body := st :: s.body } more := by
  rw [readTokens_run (fun t ht => (h t ht).1) rfl]
  show s.addStatement (withoutComments tokens) >>= _ = _
  rw [withoutComments_of_inner h, addStatement, hr]
  rfl

/-- A line that writes a header opens a block. -/
theorem readTokens_open {header : Header} (h : ∀ t ∈ tokens, t.Inner)
    (hr : Header.read tokens .start s.scope = .ok header) :
    s.readTokens (tokens ++ .openBrace :: .newline :: more) =
      (s.openBlock header).readTokens more := by
  rw [readTokens_run (fun t ht => (h t ht).1) rfl]
  show (Header.read (withoutComments tokens) .start s.scope >>= fun header =>
    pure (s.openBlock header)) >>= _ = _
  rw [withoutComments_of_inner h, hr]
  exact readTokens_newline

/-- A line with a closing brace closes the innermost block. -/
theorem readTokens_close {b : OpenBlock} {outer : List OpenBlock} {body : List Statement} :
    readTokens ⟨b :: outer, body⟩ (.closeBrace :: .newline :: more) =
      readTokens ⟨outer, b.close body⟩ more := by
  show readTokens _ ([] ++ .closeBrace :: .newline :: more) = _
  rw [readTokens_run (List.forall_mem_nil _) rfl]
  exact readTokens_newline

end ReadState

/-! ### Headers -/

namespace Header

theorem read_domain {names : List String} {brace : Position} (hne : names ≠ [])
    (h : ∀ name ∈ names, HostName name) :
    read (.reserved .domain :: names.map Token.string) brace .global = .ok (.domain names) := by
  obtain ⟨name, names, rfl⟩ := List.exists_cons_of_ne_nil hne
  have htokens := nameTokens?_strings (name :: names)
  have hnames := namesOf_strings h
  rw [List.map_cons] at htokens hnames ⊢
  simp only [read, htokens, hnames]
  rfl

/-- A regular expression that is its own source is read from every token with this value. -/
theorem readRegex_source {r : Regex} {t : Token} (ht : t.value = r.source)
    (h : Regex.sourceOf r.source.toList = r.source.toList) : readRegex t = .ok (.regex r) := by
  have hread : Regex.ofSource (String.ofList (Regex.sourceOf t.value.toList)) = .ok r := by
    rw [ht, h, String.ofList_toList]
    exact r.ofSource_source
  unfold readRegex
  split
  · next r' hr' =>
    rw [hread] at hr'
    rw [← Except.ok.inj hr']
  · next flaw hflaw =>
    rw [hread] at hflaw
    exact absurd hflaw nofun

theorem readPattern_source {r : Regex} {t : Token} (ht : t.value = r.source)
    (h : Regex.sourceOf r.source.toList = r.source.toList) :
    readPattern .tilde [t] = .ok (.regex r) := by
  have htilde : Token.tilde.value = "~" := rfl
  unfold readPattern
  rw [if_pos htilde]
  exact readRegex_source ht h

theorem readPattern_tokens {first : Token} {more : List Token} {pattern : LocationPattern}
    (h : pattern.WellFormed) (htokens : pattern.tokens = first :: more) :
    readPattern first more = .ok pattern := by
  cases pattern with
  | path text =>
    obtain ⟨rfl, rfl⟩ := List.cons.inj htokens
    exact if_neg h.1
  | regex r =>
    obtain ⟨rfl, rfl⟩ := List.cons.inj htokens
    exact readPattern_source rfl h.1

/-- In a domain block, `location` reads the pattern behind it. -/
theorem read_of_readPattern {first : Token} {more : List Token} {pattern : LocationPattern}
    {brace : Position} (h : readPattern first more = .ok pattern) :
    read (.reserved .location :: first :: more) brace .domain = .ok (.location pattern) := by
  show (readPattern first more >>= fun p => pure (location p)) = _
  rw [h]
  rfl

theorem read_location {pattern : LocationPattern} {brace : Position} (h : pattern.WellFormed) :
    read (.reserved .location :: pattern.tokens) brace .domain = .ok (.location pattern) := by
  obtain ⟨first, more, htokens⟩ : ∃ first more, pattern.tokens = first :: more := by
    cases pattern <;> exact ⟨_, _, rfl⟩
  rw [htokens]
  exact read_of_readPattern (readPattern_tokens h htokens)

end Header

/-! ### Statements -/

namespace Statement

theorem read_call {directive : String} {arguments : List Token} (hset : directive ≠ "set")
    (hd : Operand directive) (ha : ∀ t ∈ arguments, Operand t.value) :
    Statement.read (.string directive :: arguments.map (.string ·.value)) =
      .ok (some ((Statement.call directive arguments).mapTokens Token.quoting)) := by
  have harrow := no_arrow (directive :: arguments.map (·.value)) (by
    simpa [hd.2] using fun t ht => (ha t ht).2)
  rw [List.map_cons, ← map_string_value] at harrow
  simp only [Statement.read, harrow, Bool.false_eq_true, if_false]
  rw [if_neg (show (Token.string directive).value ≠ Keyword.set.text from hset)]
  rfl

theorem read_declare {name : String} {value : Value Token} (hn : Operand name)
    (hv : value.WellFormed) :
    Statement.read (.reserved .set :: .string name :: value.items.map (.string ·.value)) =
      .ok (some ((Statement.declare name value).mapTokens Token.quoting)) := by
  have harrow := no_arrow ("set" :: name :: value.items.map (·.value)) (by
    simpa [hn.2] using fun t ht => (hv.operands t ht).2)
  rw [List.map_cons, List.map_cons, ← map_string_value] at harrow
  have harrow' : (Token.reserved .set :: Token.string name ::
      value.items.map (.string ·.value)).any (·.value == "=>") = false := harrow
  simp only [Statement.read, harrow', Bool.false_eq_true, if_false]
  rw [if_pos (show (Token.reserved .set).value = Keyword.set.text from rfl)]
  cases value with
  | scalar t => rfl
  | list ts =>
    cases ts with
    | nil => exact absurd hv.1 (Nat.not_succ_le_zero 1)
    | cons t ts =>
      cases ts with
      | nil => exact absurd hv.1 (Nat.lt_irrefl 1)
      | cons u ts => rfl

theorem read_rule (source target : Token) :
    Statement.read [.string source.value, .arrow, .string target.value] =
      .ok (some ((Statement.rule source target).mapTokens Token.quoting)) := by
  have harrow : [Token.string source.value, .arrow, .string target.value].any
      (·.value == "=>") = true := by
    simp [Token.arrow, Token.bare]
  simp only [Statement.read, harrow, if_true]
  rfl

end Statement

/-! ### Bodies -/

namespace ReadState

/-- A block whose header and body are read adds itself to the body around it. -/
theorem readTokens_block {first : Token} {inner : List Token} {header : Header}
    {body : List Statement} (h : ∀ t ∈ first :: inner, t.Inner)
    (hr : Header.read (first :: inner) .start s.scope = .ok header)
    (hbody : ∀ more, (s.openBlock header).readTokens
        (lineTokens (Statement.bodyLines body) ++ more) =
      readTokens { s.openBlock header with
        body := (body.map (·.mapTokens Token.quoting)).reverse ++
          (s.openBlock header).body } more) :
    s.readTokens (lineTokens ((first :: (inner ++ [.openBrace])) ::
        (Statement.bodyLines body ++ [[.closeBrace]])) ++ more) =
      readTokens { s with
        body := header.withBody (body.map (·.mapTokens Token.quoting)) :: s.body } more := by
  have hsplit : lineTokens ((first :: (inner ++ [.openBrace])) ::
        (Statement.bodyLines body ++ [[.closeBrace]])) ++ more =
      (first :: inner) ++ .openBrace :: .newline ::
        (lineTokens (Statement.bodyLines body) ++ .closeBrace :: .newline :: more) := by
    simp [lineTokens]
  -- the header opens the block, `hbody` reads what is in it, the closing brace adds it
  rw [hsplit, readTokens_open h hr, hbody]
  show readTokens ⟨⟨header, s.body⟩ :: s.blocks, _ ++ []⟩ _ = _
  rw [readTokens_close, List.append_nil, OpenBlock.close, List.reverse_reverse]

mutual

/-- Reading the lines of a statement adds it to the body being read. -/
theorem readTokens_lines :
    ∀ (st : Statement) (s : ReadState) (more : List Token), st.WellFormed s.scope →
      s.readTokens (lineTokens st.lines ++ more) =
        readTokens { s with body := st.mapTokens Token.quoting :: s.body } more
  | .domain names body, s, more, h => by
    obtain ⟨hscope, hne, hnames, hbody⟩ := h
    have hinner : ∀ t ∈ Token.reserved .domain :: names.map Token.string, t.Inner :=
      List.forall_mem_cons.mpr ⟨Token.inner_reserved .domain, Token.inner_strings id names⟩
    have hread : Header.read (Token.reserved .domain :: names.map Token.string) .start s.scope =
        .ok (.domain names) := by
      rw [hscope]
      exact Header.read_domain hne hnames
    rw [Statement.lines, readTokens_block hinner hread fun more =>
      readTokens_bodyLines body (s.openBlock (.domain names)) more hbody]
    rw [Statement.mapTokens, Statement.mapBody_eq_map]
    rfl
  | .location pattern body, s, more, h => by
    obtain ⟨hscope, hpattern, hbody⟩ := h
    have hinner : ∀ t ∈ Token.reserved .location :: pattern.tokens, t.Inner := by
      refine List.forall_mem_cons.mpr ⟨Token.inner_reserved .location, ?_⟩
      cases pattern with
      | path text => simpa [LocationPattern.tokens] using Token.inner_string text
      | regex r =>
        simpa [LocationPattern.tokens] using ⟨Token.inner_tilde, Token.inner_string r.source⟩
    have hread : Header.read (Token.reserved .location :: pattern.tokens) .start s.scope =
        .ok (.location pattern) := by
      rw [hscope]
      exact Header.read_location hpattern
    rw [Statement.lines, readTokens_block hinner hread fun more =>
      readTokens_bodyLines body (s.openBlock (.location pattern)) more hbody]
    rw [Statement.mapTokens, Statement.mapBody_eq_map]
    rfl
  | .call directive arguments, s, more, h => by
    obtain ⟨hset, hdirective, harguments⟩ := h
    have hinner : ∀ t ∈ Token.string directive :: arguments.map (.string ·.value), t.Inner :=
      List.forall_mem_cons.mpr
        ⟨Token.inner_string directive, Token.inner_strings Token.value arguments⟩
    simpa [Statement.lines, lineTokens] using
      readTokens_line hinner (Statement.read_call hset hdirective harguments)
  | .declare name value, s, more, h => by
    obtain ⟨hname, hvalue⟩ := h
    have hinner : ∀ t ∈ Token.reserved .set :: Token.string name ::
        value.items.map (.string ·.value), t.Inner :=
      List.forall_mem_cons.mpr ⟨Token.inner_reserved .set, List.forall_mem_cons.mpr
        ⟨Token.inner_string name, Token.inner_strings Token.value value.items⟩⟩
    simpa [Statement.lines, lineTokens] using
      readTokens_line hinner (Statement.read_declare hname hvalue)
  | .rule source target, s, more, _ => by
    have hinner : ∀ t ∈ [Token.string source.value, .arrow, .string target.value], t.Inner := by
      simpa using ⟨Token.inner_string source.value, Token.inner_arrow,
        Token.inner_string target.value⟩
    simpa [Statement.lines, lineTokens] using
      readTokens_line hinner (Statement.read_rule source target)

theorem readTokens_bodyLines :
    ∀ (body : List Statement) (s : ReadState) (more : List Token),
      Statement.BodyWellFormed s.scope body →
        s.readTokens (lineTokens (Statement.bodyLines body) ++ more) =
          readTokens { s with
            body := (body.map (·.mapTokens Token.quoting)).reverse ++ s.body } more
  | [], s, more, _ => rfl
  | st :: body, s, more, h => by
    have hsplit : lineTokens (Statement.bodyLines (st :: body)) ++ more =
        lineTokens st.lines ++ (lineTokens (Statement.bodyLines body) ++ more) := by
      simp [Statement.bodyLines, lineTokens]
    rw [hsplit, readTokens_lines st s _ h.1,
      readTokens_bodyLines body { s with body := st.mapTokens Token.quoting :: s.body } more h.2]
    simp

end

end ReadState

/-! ### Whole files -/

/-- The tokens that a rule file is written from are read as the file, its texts quoted. -/
theorem RuleFile.ofTokens_tokens {f : RuleFile} (h : f.WellFormed) :
    RuleFile.ofTokens ⟨f.tokens, none⟩ = .ok (f.mapTokens Token.quoting) := by
  have hread := ReadState.readTokens_bodyLines f.body {} [] h
  rw [List.append_nil] at hread
  show ReadState.readTokens {} f.tokens >>= _ = _
  rw [RuleFile.tokens, hread]
  show ReadState.finish _ (Runs.ofTokens (lineTokens _)).last = _
  -- every line is a complete run, so that no statement is left over
  rw [Runs.last_lineTokens]
  show Except.ok (RuleFile.mk (_ ++ []).reverse) = _
  rw [List.append_nil, List.reverse_reverse]
  rfl

theorem RuleFile.mapTokens_mapTokens (φ ψ : Token → Token) (f : RuleFile) :
    (f.mapTokens φ).mapTokens ψ = f.mapTokens fun t => ψ (φ t) := by
  simp [mapTokens, Statement.mapTokens_mapTokens]

/-- **Reading undoes printing.**  The canonical text of a well-formed rule file is read as a
rule file that agrees with it in every statement and all of its texts; the kinds and the
places of tokens can differ. -/
theorem parse_print (f : RuleFile) (h : f.WellFormed) :
    ∃ f', RuleFile.parse f.print = .ok f' ∧ f'.mapTokens Token.plain = f.mapTokens Token.plain := by
  obtain ⟨tokens, hstream, htokens⟩ := ofText_print h
  -- the tokens of the text are read as those that the file was written from
  have hmoved : moved (fun _ => .start) (·.mapTokens Token.unplaced)
      (RuleFile.ofTokens ⟨tokens, none⟩) =
        .ok ((f.mapTokens Token.quoting).mapTokens Token.unplaced) := by
    have hsame : (⟨tokens, none⟩ : TokenStream).move (fun _ => .start) =
        (⟨f.tokens, none⟩ : TokenStream).move (fun _ => .start) :=
      congrArg (TokenStream.mk · none) htokens
    have hread := RuleFile.ofTokens_move (fun _ => .start) ⟨tokens, none⟩
    rw [hsame, RuleFile.ofTokens_move, RuleFile.ofTokens_tokens h] at hread
    exact hread.symm
  rw [RuleFile.parse, hstream]
  cases hread : RuleFile.ofTokens ⟨tokens, none⟩ with
  | error fault =>
    rw [hread] at hmoved
    exact absurd hmoved nofun
  | ok f' =>
    rw [hread] at hmoved
    refine ⟨f', rfl, ?_⟩
    have hplain := congrArg (RuleFile.mapTokens Token.plain) (Except.ok.inj hmoved)
    rw [RuleFile.mapTokens_mapTokens, RuleFile.mapTokens_mapTokens,
      RuleFile.mapTokens_mapTokens] at hplain
    exact hplain

end

/-- A rule file with blocks of every kind, its texts full of signs that mean something outside
of quote marks. -/
def RuleFile.quotedSample : RuleFile where
  body := [
    .declare "$set" (.list [.string "\x7b", .string "\"\\;#"]),
    .domain ["a.com", "=>"] [
      .call "location" [.string "", .string "'\x7d' # \x7b"],
      .location (.path "/ ~") [.rule (.string "=>") (.string "domain")],
      .location (.regex ⟨"^a\\/", _, rfl⟩) []]]

theorem parse_print_quotedSample : RuleFile.quotedSample.WellFormed ∧
    ∃ f', RuleFile.parse RuleFile.quotedSample.print = .ok f' ∧
      f'.mapTokens Token.plain = RuleFile.quotedSample.mapTokens Token.plain := by
  have h : RuleFile.quotedSample.WellFormed := by
    simp only [RuleFile.quotedSample, RuleFile.WellFormed, Statement.BodyWellFormed,
      Statement.WellFormed, LocationPattern.WellFormed, Value.WellFormed]
    decide
  exact ⟨h, parse_print RuleFile.quotedSample h⟩

end HostRules
