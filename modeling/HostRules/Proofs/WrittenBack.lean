/-
HostRules/Proofs/WrittenBack.lean

Writing the source of a regular expression back.  A source has no bare slash: each of its slashes
stands behind an odd number of backslashes.  Texts without a bare slash are left as they are, so
turning a text into a source is a projection onto these texts, and the source of an expression is
read as the same expression again.

    location ~ /^a/i {    becomes    location ~ "(?i)^a" {    and stays so

Design.  Bare slashes are told by the text alone (`OnlyEscapedSlashes`, `IsBareSlash`), beside the
function that reads on from a state.  Where a source can be written back is said by
`Regex.ReadsBack`: as a quoted string, in the header of a location behind any text that leads into
a domain block, and in a file of its own.

Main result: `Regex.sourceOf_stable`.
-/
import HostRules.Proofs.Canonical
import HostRules.Proofs.Delimiters
import HostRules.Proofs.HostHeaders
import HostRules.Proofs.Hosts
import HostRules.Regex.Standard

namespace HostRules

namespace Regex

variable {escaped : Bool} {text before : List Char} {c : Char}

/-! ### Bare slashes -/

/-- No slash of a text is bare: each stands behind an odd number of backslashes. -/
def OnlyEscapedSlashes (text : List Char) : Prop :=
  ∀ before behind, text = before ++ '/' :: behind → EndsOpen before

/-- A slash that the backslashes before it do not escape. -/
def IsBareSlash (before : List Char) (c : Char) : Prop := c = '/' ∧ ¬ EndsOpen before

instance (before : List Char) (c : Char) : Decidable (IsBareSlash before c) :=
  inferInstanceAs (Decidable (_ ∧ _))

theorem isBareSlash_iff : IsBareSlash before c ↔ c = '/' ∧ escapedBehind false before = false := by
  unfold IsBareSlash
  rw [← escapedBehind_eq_true_iff, Bool.not_eq_true]

theorem slashesEscaped_iff : SlashesEscaped escaped text ↔
    ∀ before behind, text = before ++ '/' :: behind → escapedBehind escaped before = true := by
  constructor
  · rintro h before behind rfl
    exact h.behind.1 rfl
  · intro h
    -- the character in front decides whether the rest begins behind a backslash
    induction text generalizing escaped with
    | nil => trivial
    | cons c cs ih =>
      refine ⟨?_, ih ?_⟩
      · rintro rfl
        exact h [] cs rfl
      · rintro before behind rfl
        exact h (c :: before) behind rfl

theorem onlyEscapedSlashes_iff : OnlyEscapedSlashes text ↔ SlashesEscaped false text := by
  unfold OnlyEscapedSlashes
  simp only [slashesEscaped_iff, escapedBehind_eq_true_iff]

/-- Each character becomes what it becomes behind the characters before it. -/
theorem escapeSlashesFrom_eq_flatten (escaped : Bool) (text : List Char) :
    escapeSlashesFrom escaped text = (text.mapIdx fun i c =>
      if c = '/' ∧ escapedBehind escaped (text.take i) = false then ['\\', c]
      else [c]).flatten := by
  induction text generalizing escaped with
  | nil => rfl
  | cons c cs ih =>
    rw [List.mapIdx_cons, List.flatten_cons, escapeSlashesFrom, ih]
    simp only [List.take_succ_cons, List.take_zero]
    show (if c = '/' ∧ escaped = false then _ else _) =
      (if c = '/' ∧ escaped = false then _ else _) ++ _
    split <;> rfl

/-- A backslash is put before each bare slash, and nothing else is changed. -/
theorem escapeSlashes_eq_flatten (text : List Char) :
    escapeSlashes text = (text.mapIdx fun i c =>
      if IsBareSlash (text.take i) c then ['\\', c] else [c]).flatten := by
  simp only [isBareSlash_iff]
  exact escapeSlashesFrom_eq_flatten false text

theorem escapeSlashes_eq_self_iff : escapeSlashes text = text ↔ OnlyEscapedSlashes text := by
  rw [onlyEscapedSlashes_iff]
  -- what has been escaped holds no bare slash, so a text that stays as it is holds none
  refine ⟨fun hsame => ?_, escapeSlashesFrom_of_escaped⟩
  rw [← hsame]
  exact slashesEscaped_escapeSlashesFrom false text

theorem sourceOf_eq_self_iff : sourceOf text = text ↔ OnlyEscapedSlashes text := by
  rw [onlyEscapedSlashes_iff]
  refine ⟨fun hsame => ?_, sourceOf_of_escaped⟩
  rw [← hsame]
  exact slashesEscaped_sourceOf text

end Regex

/-! ### The text of a header -/

variable {front : List Token} {t : Token}

/-- The text of a token. -/
def Token.text (t : Token) : String := String.ofList t.write

/-- A text that writes one token of a statement, with a given value. -/
def WritesValue (raw value : String) : Prop :=
  ∃ t : Token, tokenize raw = .ok [t] ∧ t.Inner ∧ t.value = value

/-- The text of a location header with a regular expression. -/
def Header.located (raw : String) : String := " location ~ " ++ raw ++ " \x7b"

theorem writesValue_string {text : String} (h : Unbroken text) :
    WritesValue (Token.string text).text text := by
  let raw := (Token.string text).text
  have hraw : raw.toList = (Token.string text).write := String.toList_ofList
  have hspells : Spells (Token.string text).kind (Token.string text).value.toList raw.toList
      "".toList := by
    rw [hraw]
    exact Token.writable_string h _ nofun
  have hempty : (TokenStream.ofText "").unplaced = ⟨[], none⟩ :=
    TokenStream.unplaced_ofText_blank (List.forall_mem_nil _)
  have hstream : (TokenStream.ofText raw).unplaced =
      (⟨[.string text], none⟩ : TokenStream).unplaced := by
    have htoken := TokenStream.unplaced_ofText_token hspells
    rwa [String.append_empty, hempty] at htoken
  obtain ⟨tokens, htokens, hsame⟩ := TokenStream.of_unplaced hstream
  obtain ⟨t, rfl, ht⟩ := List.map_eq_singleton_iff.mp hsame
  have hkind : t.kind = .quoted := congrArg Token.kind ht
  have hvalue : t.value = text := congrArg Token.value ht
  refine ⟨t, tokenize_eq_ok_iff.mpr htokens, ⟨?_, ?_⟩, hvalue⟩
  · rw [hkind]
    rfl
  · rw [hkind]
    nofun

/-- The tokens of a text with a location header. -/
theorem TokenStream.unplaced_ofText_located {a raw : String} (ha : ofText a = ⟨front, none⟩)
    (hends : ∀ t, front.getLast? = some t → t.kind ≠ .comment) (hraw : ofText raw = ⟨[t], none⟩)
    (ht : t.kind ≠ .comment) (b : String) :
    (ofText (a ++ Header.located raw ++ b)).unplaced =
      (behind front
        (behind ([.reserved .location, .tilde, t] ++ [.openBrace]) (ofText b))).unplaced := by
  have hsplit : a ++ Header.located raw ++ b =
      a ++ (" " ++ ("location" ++ (" " ++ ("~" ++ (" " ++ (raw ++ (" " ++ ("\x7b" ++ b)))))))) := by
    simp [Header.located, ← String.toList_inj]
  have hlast : ∀ t', [t].getLast? = some t' → t'.kind ≠ .comment := by
    intro t' ht'
    rwa [← Option.some.inj ht']
  rw [hsplit, unplaced_ofText_append ha (endsLast_space hends _),
    unplaced_ofText_spaced (Token.writable_reserved .location) "location" rfl,
    -- the space behind `location` counts for `~` as well
    ← unplaced_ofText_gap onlyGaps_space ("~" ++ _),
    unplaced_ofText_spaced Token.writable_tilde "~" rfl,
    unplaced_ofText_append hraw (endsLast_space hlast _), unplaced_ofText_gap onlyGaps_space,
    unplaced_ofText_open, unplaced_behind, unplaced_behind]
  rfl

section

variable [Regex.Dialect]

/-! ### Where a source can stand -/

/-- A text that ends a statement, or is empty, and the state that reading it leads to. -/
def LeadsTo (a : String) (s : ReadState) : Prop :=
  ∃ front, tokenize a = .ok front ∧
    (∀ t, front.getLast? = some t → t.kind.endsStatement = true) ∧
    ReadState.readTokens {} front = .ok s

/-- A file with one host, and one location in it. -/
def RuleFile.ofLocation (name : String) (r : Regex) : RuleFile :=
  ⟨[.domain [name] [.location (.regex r) []]]⟩

/-- What a file with one host and one location comes to. -/
def Config.ofLocation (name : String) (r : Regex) : Config :=
  ofDomains [⟨name, [], ∅, [⟨.regex r, false, [], ∅⟩]⟩]

/-- A regular expression whose source, written back, is read as the same expression. -/
structure Regex.ReadsBack (r : Regex) : Prop where
  /-- Between quote marks the source can be written. -/
  quoted : WritesValue (Token.string r.source).text r.source
  /-- However it is written, in a domain block it opens a block for the expression. -/
  located : ∀ {a raw : String} {s : ReadState}, LeadsTo a s → s.scope = .domain →
    WritesValue raw r.source → ∀ b,
      RuleFile.unplaced (RuleFile.parse (a ++ Header.located raw ++ b)) =
        RuleFile.unplaced ((s.openBlock (.location (.regex r))).readRest (TokenStream.ofText b))
  /-- A file in which it is written compiles to a location for the expression. -/
  compiled : ∀ (o : Options) {name : String}, HostName name →
    o.compile (RuleFile.ofLocation name r).print = .ok (.ofLocation name r)

variable {r : Regex}

namespace RuleFile

/-- Behind a text that leads into a domain block, a header opens a block for the expression that
is written in it. -/
theorem unplaced_parse_located {a raw : String} {s : ReadState} (hlead : LeadsTo a s)
    (hscope : s.scope = .domain) (h : Regex.sourceOf r.source.toList = r.source.toList)
    (hwrites : WritesValue raw r.source) (b : String) :
    unplaced (parse (a ++ Header.located raw ++ b)) =
      unplaced ((s.openBlock (.location (.regex r))).readRest (TokenStream.ofText b)) := by
  obtain ⟨front, ha, hends, hread⟩ := hlead
  obtain ⟨t, hraw, ht, hvalue⟩ := hwrites
  have hfront : ∀ t, front.getLast? = some t → t.kind ≠ .comment :=
    fun t ht hcomment => absurd (hends t ht) (by rw [hcomment]; decide)
  have hinner : ∀ t' ∈ [Token.reserved .location, .tilde, t], t'.Inner := by
    simpa using ⟨Token.inner_reserved .location, Token.inner_tilde, ht⟩
  have hheader : Header.read [.reserved .location, .tilde, t] .start s.scope =
      .ok (.location (.regex r)) := by
    rw [hscope]
    exact Header.read_of_readPattern (Header.readPattern_source hvalue h)
  have hplaced := unplaced_ofTokens (TokenStream.unplaced_ofText_located
    (tokenize_eq_ok_iff.mp ha) hfront (tokenize_eq_ok_iff.mp hraw) ht.2 b)
  rw [parse, hplaced]
  show unplaced (ReadState.readRest {} _) = _
  rw [ReadState.readRest_behind hends, hread]
  show unplaced (s.readRest _) = _
  rw [ReadState.readRest_header hinner, hheader]
  rfl

theorem resolve_ofLocation (name passthrough : String) (r : Regex) :
    (ofLocation name r).resolve passthrough = .ofLocation name r := by
  have hname : Substitution.apply [] name = name := String.ofList_toList
  -- no variable is declared, so nothing is put into the name
  show Config.ofDomains [⟨Substitution.apply [] name, [], ∅, [⟨.regex r, false, [], ∅⟩]⟩] = _
  rw [hname]
  rfl

theorem wellFormed_ofLocation {name : String} (hname : HostName name)
    (hr : (LocationPattern.regex r).WellFormed) : (ofLocation name r).WellFormed := by
  have hlocation : (Statement.location (.regex r) []).WellFormed .domain := ⟨rfl, hr, trivial⟩
  have hdomain : (Statement.domain [name] [.location (.regex r) []]).WellFormed .global :=
    ⟨rfl, List.cons_ne_nil _ _, List.forall_mem_singleton.mpr hname, hlocation, trivial⟩
  exact ⟨hdomain, trivial⟩

end RuleFile

/-- An expression that can be written in a header is read back. -/
theorem LocationPattern.WellFormed.readsBack (h : (LocationPattern.regex r).WellFormed) :
    r.ReadsBack where
  quoted := writesValue_string h.2
  located hlead hscope hwrites b := RuleFile.unplaced_parse_located hlead hscope h.1 hwrites b
  compiled o _ hname := by
    rw [RuleFile.compile_print (RuleFile.wellFormed_ofLocation hname h),
      RuleFile.resolve_ofLocation]

/-! ### Expressions of compiled files -/

namespace RuleFile

variable {f : RuleFile} {block : List String × List Statement}

theorem WellFormed.pattern (h : f.WellFormed) (hblock : block ∈ domainBlocks f.body)
    {l : LocationPattern × List Statement} (hl : l ∈ locationBlocks block.2) :
    l.1.WellFormed := by
  obtain ⟨-, -, -, hbody⟩ := Statement.bodyWellFormed_iff.mp h _ (mem_domainBlocks.mp hblock)
  obtain ⟨-, hpattern, -⟩ := Statement.bodyWellFormed_iff.mp hbody _ (mem_locationBlocks.mp hl)
  exact hpattern

/-- A regular expression in the entry of a host comes from a location block: the locations of
rules have paths. -/
theorem Describes.exists_block {passthrough host : String} {d : Domain}
    (h : f.Describes passthrough host d) {l : Location} (hl : l ∈ d.locations)
    (hr : l.pattern = .regex r) : ∃ block ∈ domainBlocks f.body,
      ∃ inner ∈ locationBlocks block.2, inner.1 = .regex r := by
  rw [h.locations, List.mem_append, List.mem_map] at hl
  rcases hl with hl | ⟨rule, -, rfl⟩
  · obtain ⟨block, hblock, hl⟩ := List.mem_flatMap.mp hl
    obtain ⟨-, -, hl⟩ := List.mem_flatMap.mp hl
    obtain ⟨⟨pattern, body⟩, hinner, rfl⟩ := List.mem_map.mp hl
    refine ⟨block, hblock, ⟨pattern, body⟩, hinner, ?_⟩
    cases pattern with
    | path text => cases hr
    | regex r' => exact hr
  · cases hr

end RuleFile

/-! ### The projection -/

namespace Regex

/-- **Turning a text into a source is a projection, and sources can be written back.**  Escaping
puts a backslash before each bare slash of a text and changes nothing else; no slash is bare then,
and a text without a bare slash stays as it is.  A source has no bare slash and does not begin
with a slash, and the texts without a bare slash are their own sources.  So a text that compiles
can be exchanged for the canonical text, in which the regular expressions are written as their
sources; and the source of each of them, written into a file, is read as the same expression. -/
theorem sourceOf_stable :
    (∀ text, OnlyEscapedSlashes (escapeSlashes text) ∧
      escapeSlashes text = (text.mapIdx fun i c =>
        if IsBareSlash (text.take i) c then ['\\', c] else [c]).flatten ∧
      (escapeSlashes text = text ↔ OnlyEscapedSlashes text) ∧
      escapeSlashes (escapeSlashes text) = escapeSlashes text) ∧
    (∀ text, OnlyEscapedSlashes (sourceOf text) ∧ (sourceOf text).head? ≠ some '/' ∧
      (sourceOf text = text ↔ OnlyEscapedSlashes text) ∧
      sourceOf (sourceOf text) = sourceOf text) ∧
    ∀ (o : Options) (source : String) (c : Config), o.compile source = .ok c →
      (∃ f, RuleFile.parse source = .ok f ∧ o.compile f.print = .ok c) ∧
      ∀ entry ∈ c.entries, ∀ l ∈ entry.2.locations, ∀ r, l.pattern = .regex r → r.ReadsBack := by
  refine ⟨?_, ?_, ?_⟩
  · intro text
    have hescaped := slashesEscaped_escapeSlashesFrom false text
    exact ⟨onlyEscapedSlashes_iff.mpr hescaped, escapeSlashes_eq_flatten text,
      escapeSlashes_eq_self_iff, escapeSlashesFrom_of_escaped hescaped⟩
  · intro text
    have hescaped := slashesEscaped_sourceOf text
    exact ⟨onlyEscapedSlashes_iff.mpr hescaped, hescaped.head?_ne, sourceOf_eq_self_iff,
      sourceOf_sourceOf text⟩
  · intro o source c h
    obtain ⟨f, hparse, hwritten, rfl, hcanonical⟩ := RuleFile.exists_canonical h
    refine ⟨⟨f, hparse, hcanonical⟩, ?_⟩
    rintro ⟨host, d⟩ hentry l hl r hr
    -- the expression stands in a block of the file, which is well-formed since it was read
    have hdescribes := RuleFile.describes_of_get? (Table.get?_eq_some_iff.mpr hentry)
    obtain ⟨block, hblock, inner, hinner, hpattern⟩ := hdescribes.exists_block hl hr
    have hwell := hwritten.pattern hblock hinner
    rw [hpattern] at hwell
    exact hwell.readsBack

end Regex

end

namespace Regex

/-- A body with a bare and an escaped slash between delimiters, with a flag. -/
def flaggedSample : String :=
  "d.com => \x7b\nlocation ~ '/^a b/c\\\\/d/s' \x7b\x7d\n\x7d"

theorem leadsTo_openBlock : ∃ s, LeadsTo "e.com => \x7b" s ∧ s.scope = .domain := by
  let front := (TokenStream.ofText "e.com => \x7b").tokens
  have hfront : tokenize "e.com => \x7b" = .ok front :=
    tokenize_eq_ok_iff.mpr (by decide +kernel)
  have hends : ∀ t, front.getLast? = some t → t.kind.endsStatement = true := by
    have hlast : front.getLast?.all (·.kind.endsStatement) = true := by decide +kernel
    intro t ht
    rwa [ht] at hlast
  have hscope : (ReadState.readTokens {} front).toOption.map (·.scope) = some .domain := by
    decide +kernel
  cases hread : ReadState.readTokens {} front with
  | error fault =>
    rw [hread] at hscope
    cases hscope
  | ok s =>
    rw [hread] at hscope
    exact ⟨s, ⟨front, hfront, hends, hread⟩, Option.some.inj hscope⟩

theorem sourceOf_stable_flaggedSample : ∃ c, Options.compile {} flaggedSample = .ok c ∧
    ∃ entry ∈ c.entries, ∃ l ∈ entry.2.locations, ∃ r, l.pattern = .regex r ∧
      r.source = "(?s)^a b\\/c\\/d" ∧ r.ReadsBack ∧
      ∃ s : ReadState, s.scope = .domain ∧
        RuleFile.unplaced (RuleFile.parse
          ("e.com => \x7b" ++ Header.located (Token.string r.source).text ++ "\x7d")) =
            RuleFile.unplaced
              ((s.openBlock (.location (.regex r))).readRest (TokenStream.ofText "\x7d")) := by
  obtain ⟨f, hparse, entry, hentry, l, hl, hregex, htext⟩ :
      ∃ f, RuleFile.parse flaggedSample = .ok f ∧
        ∃ entry ∈ (f.resolve "proxy_pass").entries, ∃ l ∈ entry.2.locations,
          l.pattern.isRegex = true ∧ l.pattern.text = "(?s)^a b\\/c\\/d" :=
    RuleFile.exists_parse (by decide +kernel)
  have hcompile : Options.compile {} flaggedSample = .ok (f.resolve "proxy_pass") :=
    Options.compile_eq_ok_iff.mpr ⟨f, hparse, rfl⟩
  obtain ⟨-, -, hcompiled⟩ := sourceOf_stable
  cases hpattern : l.pattern with
  | path text =>
    rw [hpattern] at hregex
    cases hregex
  | regex r =>
    rw [hpattern] at htext
    have hback := (hcompiled {} flaggedSample _ hcompile).2 entry hentry l hl r hpattern
    obtain ⟨s, hlead, hscope⟩ := leadsTo_openBlock
    exact ⟨_, hcompile, entry, hentry, l, hl, r, hpattern, htext, hback, s, hscope,
      hback.located hlead hscope hback.quoted "\x7d"⟩

end Regex

end HostRules
