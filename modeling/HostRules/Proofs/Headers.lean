/-
HostRules/Proofs/Headers.lean

What becomes of the tokens before a brace.  A header is read from all of them, but some are
passed over: behind the pattern of a location, and at the head of a list of host names that
neither `domain` nor an arrow marks, whose first token is taken for `domain` whatever it is.

Design.  `Header.Accounts` lists the forms of a header, each with the tokens that leave no trace
in it.  Blocks nest, and so the headers of a file are compared with those of a text in the order
in which they open.  A reading state has opened some headers already (`ReadState.headers`); a run
adds the one that it opens behind them and nothing else (`ReadState.headers_step`), and closing
blocks adds none.

Main results: the headers of a file that is read are those of the text, each read from its tokens
but for those that are passed over (`RuleFile.headers_accounted`); host names can be among these
(`RuleFile.headers_lost`).
-/
import Mathlib.Data.List.Forall2
import HostRules.Proofs.Joining
import HostRules.Regex.Standard

namespace HostRules

variable {tokens names more : List Token} {first t : Token}

section

variable [Regex.Dialect]

/-! ### One header -/

namespace Header

/-- The tokens of a header that leave no trace in it. -/
def passedOver : List Token → List Token
  | first :: second :: more =>
    if first.kind = .keyword .location then
      if second.value = "~" then more.drop 1 else more
    else if first.kind = .keyword .domain ∨ (first :: second :: more).any (·.kind == .arrow) then []
    else [first]
  | _ => []

/-- How the tokens of a header write it, but for the tokens `passed`. -/
inductive Accounts : (tokens passed : List Token) → Header → Prop
  /-- `location`, a path. -/
  | path {keyword path : Token} {more : List Token} : keyword.kind = .keyword .location →
      path.value ≠ "~" → Accounts (keyword :: path :: more) more (.location (.path path.value))
  /-- `location`, `~`, a regular expression. -/
  | regex {keyword marker source : Token} {more : List Token} {r : Regex} :
      keyword.kind = .keyword .location → marker.value = "~" →
      Regex.ofSource (String.ofList (Regex.sourceOf source.value.toList)) = .ok r →
      Accounts (keyword :: marker :: source :: more) more (.location (.regex r))
  /-- `domain`, host names. -/
  | domain {keyword : Token} {names : List Token} : keyword.kind = .keyword .domain →
      (∀ t ∈ names, t.kind ≠ .arrow) → Accounts (keyword :: names) [] (.domain (namesOf names))
  /-- Host names, an arrow. -/
  | arrow {names : List Token} {arrow : Token} : arrow.kind = .arrow →
      (∀ t ∈ names, t.kind ≠ .arrow) → Accounts (names ++ [arrow]) [] (.domain (namesOf names))
  /-- A token that marks nothing, host names. -/
  | unmarked {first : Token} {names : List Token} : first.kind ≠ .keyword .location →
      first.kind ≠ .keyword .domain → (∀ t ∈ first :: names, t.kind ≠ .arrow) →
      Accounts (first :: names) [first] (.domain (namesOf names))

omit [Regex.Dialect] in
/-- The tokens that hold the host names are all but the first one, when there is no arrow, or all
but an arrow at the end. -/
theorem nameTokens?_eq_some (h : nameTokens? first more = some names) :
    (names = more ∧ ∀ t ∈ first :: more, t.kind ≠ .arrow) ∨
      ∃ arrow, first :: more = names ++ [arrow] ∧ arrow.kind = .arrow ∧
        ∀ t ∈ names, t.kind ≠ .arrow := by
  unfold nameTokens? at h
  split at h
  · next hnone =>
    obtain rfl := Option.some.inj h
    refine Or.inl ⟨rfl, fun t ht => ?_⟩
    simpa using List.findIdx?_eq_none_iff.mp hnone t ht
  · next i hsome =>
    split at h
    · next hlast =>
      obtain ⟨rfl, -⟩ := hlast
      obtain rfl := Option.some.inj h
      -- the first arrow stands at the end, so all that comes before it holds no arrow
      obtain ⟨hi, harrow, hbefore⟩ := List.findIdx?_eq_some_iff_getElem.mp hsome
      refine Or.inr ⟨(first :: more)[more.length], ?_, by simpa using harrow, fun t ht => ?_⟩
      · rw [List.take_append_getElem]
        exact List.take_length.symm
      · obtain ⟨j, hj, rfl⟩ := List.mem_take_iff_getElem.mp ht
        simpa using hbefore j (by omega)
    · cases h

/-- The header of a location, behind its first token. -/
theorem accounts_of_readPattern {pattern : LocationPattern}
    (hlocation : first.kind = .keyword .location) (h : readPattern t more = .ok pattern) :
    Accounts (first :: t :: more) (passedOver (first :: t :: more)) (.location pattern) := by
  rw [passedOver, if_pos hlocation]
  unfold readPattern at h
  split at h
  · next htilde =>
    rw [if_pos htilde]
    cases more with
    | nil => cases h
    | cons source more =>
      unfold readRegex at h
      dsimp only at h
      split at h
      · next r hr =>
        cases h
        exact .regex hlocation htilde hr
      · cases h
  · next htilde =>
    cases h
    rw [if_neg htilde]
    exact .path hlocation htilde

/-- The header of a host block. -/
theorem accounts_of_nameTokens? (hlocation : first.kind ≠ .keyword .location)
    (h : nameTokens? first (t :: more) = some names) :
    Accounts (first :: t :: more) (passedOver (first :: t :: more)) (.domain (namesOf names)) := by
  rw [passedOver, if_neg hlocation]
  rcases nameTokens?_eq_some h with ⟨rfl, hno⟩ | ⟨arrow, hall, harrow, hno⟩
  · have hnone : ¬ (first :: t :: more).any (·.kind == .arrow) = true := by simpa using hno
    -- without an arrow the first token holds no name, whether or not it is the keyword
    by_cases hdomain : first.kind = .keyword .domain
    · rw [if_pos (Or.inl hdomain)]
      exact .domain hdomain fun t ht => hno t (List.mem_cons_of_mem first ht)
    · rw [if_neg (not_or.mpr ⟨hdomain, hnone⟩)]
      exact .unmarked hlocation hdomain hno
  · have hsome : (first :: t :: more).any (·.kind == .arrow) = true := by simp [hall, harrow]
    rw [if_pos (Or.inr hsome), hall]
    exact .arrow harrow hno

/-- **One header.**  What is read is accounted for. -/
theorem accounts_of_read {brace : Position} {parent : BlockKind} {header : Header}
    (h : read tokens brace parent = .ok header) : Accounts tokens (passedOver tokens) header := by
  obtain ⟨first, second, more, rfl, -, hcases⟩ := read_eq_ok h
  rcases hcases with ⟨hlocation, pattern, hread, rfl⟩ | ⟨hlocation, names, hnames, -, rfl⟩
  · exact accounts_of_readPattern hlocation hread
  · exact accounts_of_nameTokens? hlocation hnames

end Header

/-! ### The headers of a file and of a text -/

mutual

/-- The headers of the blocks in a statement, in the order in which they open. -/
def Statement.headers : Statement → List Header
  | domain names body => .domain names :: bodyHeaders body
  | location pattern body => .location pattern :: bodyHeaders body
  | call _ _ | declare _ _ | rule _ _ => []

/-- The headers of the blocks in a body, in the order in which they open. -/
def Statement.bodyHeaders : List Statement → List Header
  | [] => []
  | s :: more => s.headers ++ bodyHeaders more

end

/-- The headers of the blocks in a file, in the order in which they open. -/
def RuleFile.headers (f : RuleFile) : List Header := Statement.bodyHeaders f.body

/-- The tokens of a header, when a run ends with an opening brace. -/
def Run.header? (run : Run) : Option (List Token) :=
  if run.terminator.kind = .blockStart then some (withoutComments run.tokens) else none

/-- The tokens of all headers of a text. -/
def TokenStream.headers (stream : TokenStream) : List (List Token) :=
  (Runs.ofTokens stream.tokens).complete.filterMap Run.header?

/-- A header that some tokens write, but for those that are passed over. -/
def Header.Accounted (tokens : List Token) (header : Header) : Prop :=
  header.Accounts tokens (passedOver tokens)

namespace Statement

variable {body : List Statement} {st : Statement}

theorem bodyHeaders_append (body more : List Statement) :
    bodyHeaders (body ++ more) = bodyHeaders body ++ bodyHeaders more := by
  induction body with
  | nil => rfl
  | cons s body ih => rw [List.cons_append, bodyHeaders, ih, bodyHeaders, List.append_assoc]

/-- A plain statement opens no block. -/
theorem headers_of_read (h : Statement.read tokens = .ok (some st)) : st.headers = [] := by
  unfold Statement.read at h
  split at h
  · cases h
  · split at h
    · split at h
      · split at h <;> cases h
        rfl
      · cases h
    · split at h
      · split at h <;> cases h <;> rfl
      · cases h
        rfl

end Statement

/-! ### Reading states -/

namespace ReadState

variable {s s' : ReadState}

/-- The headers of the blocks that have been opened, those of closed blocks among them. -/
def openedHeaders : List OpenBlock → (body : List Statement) → List Header
  | [], body => Statement.bodyHeaders body.reverse
  | b :: outer, body =>
    openedHeaders outer b.before ++ b.header :: Statement.bodyHeaders body.reverse

/-- The headers that have been read. -/
def headers (s : ReadState) : List Header := openedHeaders s.blocks s.body

theorem openedHeaders_append (blocks : List OpenBlock) (statements body : List Statement) :
    openedHeaders blocks (statements ++ body) =
      openedHeaders blocks body ++ Statement.bodyHeaders statements.reverse := by
  -- the innermost body comes last, whatever blocks are open
  cases blocks with
  | nil =>
    rw [openedHeaders, List.reverse_append, Statement.bodyHeaders_append]
    rfl
  | cons b outer =>
    rw [openedHeaders, List.reverse_append, Statement.bodyHeaders_append, openedHeaders,
      List.append_assoc, List.cons_append]

/-- Closing a block opens none. -/
theorem openedHeaders_close (b : OpenBlock) (outer : List OpenBlock) (body : List Statement) :
    openedHeaders outer (b.close body) = openedHeaders (b :: outer) body := by
  have hblock : Statement.bodyHeaders [b.header.withBody body.reverse] =
      b.header :: Statement.bodyHeaders body.reverse := by
    cases b.header <;> exact List.append_nil _
  show openedHeaders outer ([b.header.withBody body.reverse] ++ b.before) = _
  rw [openedHeaders_append, List.reverse_singleton, hblock]
  rfl

theorem openedHeaders_close_all (blocks : List OpenBlock) (body : List Statement) :
    Statement.bodyHeaders (blocks.foldl (fun body (b : OpenBlock) => b.close body) body).reverse =
      openedHeaders blocks body := by
  induction blocks generalizing body with
  | nil => rfl
  | cons b outer ih => rw [List.foldl_cons, ih, openedHeaders_close]

/-- A plain statement adds no header. -/
theorem openedHeaders_read {st : Option Statement} (h : Statement.read tokens = .ok st)
    (blocks : List OpenBlock) (body : List Statement) :
    openedHeaders blocks (st.toList ++ body) = openedHeaders blocks body := by
  rw [openedHeaders_append]
  cases st with
  | none => exact List.append_nil _
  | some st =>
    show openedHeaders blocks body ++ (st.headers ++ []) = _
    rw [Statement.headers_of_read h, List.append_nil, List.append_nil]

/-- **One run** adds the header that it reads, if it opens a block, behind the others. -/
theorem headers_step {run : Run} (h : s.step run = .ok s') :
    ∃ added, s'.headers = s.headers ++ added ∧
      List.Forall₂ Header.Accounted run.header?.toList added := by
  have hdoes := step_eq_ok h
  cases hkind : run.terminator.kind with
  | blockStart =>
    simp only [hkind] at hdoes
    obtain ⟨header, hread, rfl⟩ := hdoes
    refine ⟨[header], rfl, ?_⟩
    rw [Run.header?, if_pos hkind]
    exact .cons (Header.accounts_of_read hread) .nil
  | blockEnd =>
    -- the block that closes has its header among those read, since it opened
    simp only [hkind] at hdoes
    obtain ⟨b, outer, st, hblocks, hread, rfl⟩ := hdoes
    refine ⟨[], ?_, ?_⟩
    · show openedHeaders outer (b.close (st.toList ++ s.body)) = openedHeaders s.blocks s.body ++ []
      rw [openedHeaders_close, openedHeaders_read hread, hblocks, List.append_nil]
    · rw [Run.header?, hkind]
      exact .nil
  | _ =>
    simp only [hkind] at hdoes
    obtain ⟨st, hread, rfl⟩ := hdoes
    refine ⟨[], ?_, ?_⟩
    · show openedHeaders s.blocks (st.toList ++ s.body) = openedHeaders s.blocks s.body ++ []
      rw [openedHeaders_read hread, List.append_nil]
    · rw [Run.header?, hkind]
      exact .nil

/-- All runs add the headers that they read, in their order. -/
theorem headers_foldlM {runs : List Run} (h : runs.foldlM step s = .ok s') :
    ∃ added, s'.headers = s.headers ++ added ∧
      List.Forall₂ Header.Accounted (runs.filterMap Run.header?) added := by
  -- along the runs, each of which adds behind what is there
  induction runs generalizing s with
  | nil =>
    cases h
    exact ⟨[], (List.append_nil _).symm, .nil⟩
  | cons run runs ih =>
    rw [List.foldlM_cons] at h
    obtain ⟨s₁, hstep, hrest⟩ := ok_of_bind h
    obtain ⟨first, hfirst, hread⟩ := headers_step hstep
    obtain ⟨later, hlater, hreads⟩ := ih hrest
    refine ⟨first ++ later, by rw [hlater, hfirst, List.append_assoc], ?_⟩
    have hruns : (run :: runs).filterMap Run.header? =
        run.header?.toList ++ runs.filterMap Run.header? := by
      rw [List.filterMap_cons]
      cases run.header? <;> rfl
    rw [hruns]
    exact List.rel_append hread hreads

theorem headers_finish {last : List Token} {f : RuleFile} (h : s.finish last = .ok f) :
    f.headers = s.headers := by
  obtain ⟨st, hread, rfl⟩ := finish_eq_ok h
  show Statement.bodyHeaders
    (s.blocks.foldl (fun body (b : OpenBlock) => b.close body) _).reverse = _
  rw [openedHeaders_close_all, openedHeaders_read hread]
  rfl

end ReadState

/-! ### Whole files -/

namespace RuleFile

variable {f : RuleFile}

/-- **Headers.**  The blocks of a file that is read are those whose headers the text has, in their
order, and each token of a header is accounted for unless it is passed over. -/
theorem headers_accounted {source : String} (h : parse source = .ok f) :
    List.Forall₂ Header.Accounted (TokenStream.ofText source).headers f.headers := by
  obtain ⟨s, hfold, hfinish⟩ := ofTokens_eq_ok h
  obtain ⟨added, hadded, hreads⟩ := ReadState.headers_foldlM hfold
  rw [ReadState.headers_finish hfinish, hadded]
  exact hreads

end RuleFile

end

namespace RuleFile

/-- One header of each form, with tokens behind both patterns. -/
def formsSample : String :=
  "a 'b,c' => \x7b\nlocation ~ x y \x7b\x7d\nlocation /p q \x7b\x7d\n\x7d\n" ++
    "domain d \x7b\x7d\nset e \x7b\x7d"

theorem headers_accounted_formsSample : ∃ f, parse formsSample = .ok f ∧
    List.Forall₂ Header.Accounted (TokenStream.ofText formsSample).headers f.headers ∧
    (TokenStream.ofText formsSample).headers.map (fun ts => (Header.passedOver ts).map (·.value)) =
      [[], ["y"], ["q"], [], ["set"]] := by
  obtain ⟨f, hf, -⟩ : ∃ f, parse formsSample = .ok f ∧ True := exists_parse (by decide +kernel)
  exact ⟨f, hf, headers_accounted hf, by decide +kernel⟩

/-- The first host name stands where `domain` would, and a second path behind the first. -/
def droppedSample : String := "a.com b.com \x7b\nlocation /a /b \x7b\x7d\n\x7d"

/-- Neither the host nor the path is in the file. -/
theorem headers_lost : ∃ f, parse droppedSample = .ok f ∧
    f.headers = [.domain ["b.com"], .location (.path "/a")] ∧
    (TokenStream.ofText droppedSample).headers.map (·.map (·.value)) =
      [["a.com", "b.com"], ["location", "/a", "/b"]] :=
  exists_parse (by decide +kernel)

end RuleFile

end HostRules
