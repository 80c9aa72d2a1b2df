/-
HostRules/Proofs/Diagnostics.lean

Diagnostics point at what is wrong.  `Diagnostic.PointsInto` says which character of a line that
is: the quote mark of a string that the line does not close, or the first character of the token to
blame; only where a pattern is missing behind a `~`, the token ends there.  `CaretUnder` says of two
rows that the caret of the lower one stands under a character of the line which the upper one shows.

The three agree because each of them goes by the same lines: the place of a fault counts the line
breaks before it (`exists_lineAt`), the lines that are shown are told by theirs
(`mem_contextLines`), and no line number is wider than the gutter (`length_decimal_le_gutter`), so
that all lines are shown from one offset on (`caretUnder_rows`).

Main result: `RuleFile.diagnostic_exact`.
-/
import HostRules.Proofs.Lines
import HostRules.Regex.Standard

namespace HostRules

variable {text line body raw more : List Char} {i j k : Nat} {f : Fault} {t : Token}

/-! ### Rows -/

/-- The row `caret` has its `^` at the offset at which the row `row` has the character with the
number `column` of `line`, with which it ends. -/
def CaretUnder (line : List Char) (column : Nat) (row caret : List Char) : Prop :=
  ∃ margin blank, row = margin ++ line ∧ caret = blank ++ ['^'] ∧ '^' ∉ blank ∧
    blank.length + 1 = margin.length + column

/-- Rows, each with a line break behind it. -/
def joinRows (rows : List (List Char)) : List Char := rows.flatMap (· ++ ['\n'])

theorem joinRows_cons (row : List Char) (rows : List (List Char)) :
    joinRows (row :: rows) = row ++ '\n' :: joinRows rows := by
  simp [joinRows]

theorem joinRows_append (rows more : List (List Char)) :
    joinRows (rows ++ more) = joinRows rows ++ joinRows more := List.flatMap_append

theorem Diagnostic.render_toList (d : Diagnostic) : d.render.toList = joinRows d.rows :=
  String.toList_ofList

namespace Diagnostic

variable {d : Diagnostic} {l : ContextLine} {above below lines : List ContextLine}

/-- The rows before the lines: the message, the place, and an empty one. -/
def heading (d : Diagnostic) : List (List Char) :=
  ["error: ".toList ++ d.message.toList, d.placeRow, spaces d.gutter ++ [' ', '|']]

/-- The row that shows a line, behind its number. -/
def sourceRow (d : Diagnostic) (l : ContextLine) : List Char :=
  spaces (d.gutter - (decimal l.number).length) ++ decimal l.number ++ [' ', '|', ' '] ++
    l.text.toList

/-- The row with the caret. -/
def caretRow (d : Diagnostic) : List Char :=
  spaces d.gutter ++ [' ', '|', ' '] ++ spaces (d.column - 1) ++ ['^']

theorem contextRows_self (h : l.number = d.line) :
    d.contextRows l = [d.sourceRow l, d.caretRow] := if_pos h

theorem flatMap_contextRows (h : ∀ l ∈ lines, l.number ≠ d.line) :
    lines.flatMap d.contextRows = lines.map d.sourceRow := by
  induction lines with
  | nil => rfl
  | cons l lines ih =>
    obtain ⟨hl, hlines⟩ := List.forall_mem_cons.mp h
    have hrow : d.contextRows l = [d.sourceRow l] := if_neg hl
    rw [List.flatMap_cons, hrow, ih hlines]
    rfl

/-- The rows of a diagnostic: the caret row stands right under the row of the failing line. -/
theorem rows_eq (hcontext : d.context = above ++ l :: below)
    (hascending : d.context.Pairwise (·.number < ·.number)) (hl : l.number = d.line) :
    d.rows = d.heading ++ above.map d.sourceRow ++
      (d.sourceRow l :: d.caretRow :: below.map d.sourceRow) := by
  -- the numbers ascend, so that no other line has the number of the failing one
  rw [hcontext, List.pairwise_append] at hascending
  obtain ⟨-, hbelow, habove⟩ := hascending
  have habove' : ∀ l' ∈ above, l'.number ≠ d.line := by
    intro l' hl'
    have := habove l' hl' l List.mem_cons_self
    omega
  have hbelow' : ∀ l' ∈ below, l'.number ≠ d.line := by
    intro l' hl'
    have := (List.pairwise_cons.mp hbelow).1 l' hl'
    omega
  unfold rows
  rw [hcontext, List.flatMap_append, List.flatMap_cons, contextRows_self hl,
    flatMap_contextRows habove', flatMap_contextRows hbelow']
  rfl

theorem length_decimal_le_gutter (h : l ∈ d.context) : (decimal l.number).length ≤ d.gutter :=
  List.le_max?_getD_of_mem (List.mem_map_of_mem h)

/-- The caret stands under the column, whatever the widths of the line numbers. -/
theorem caretUnder_rows (h : l ∈ d.context) (hcolumn : 1 ≤ d.column) :
    CaretUnder l.text.toList d.column (d.sourceRow l) d.caretRow := by
  -- numbers are filled up to the width of the gutter, so every row begins its text at one column
  have hwidth := length_decimal_le_gutter h
  refine ⟨_, _, rfl, rfl, ?_, ?_⟩
  · simp [spaces]
  · simp [spaces]
    omega

theorem not_mem_spaces (n : Nat) : '\n' ∉ spaces n := by
  simp [spaces]

theorem not_mem_decimal (n : Nat) : '\n' ∉ decimal n := by
  intro h
  exact absurd (Nat.isDigit_of_mem_toDigits (by decide) (by decide) h) (by decide)

theorem not_mem_sourceRow (h : '\n' ∉ l.text.toList) : '\n' ∉ d.sourceRow l := by
  simp [sourceRow, not_mem_spaces, not_mem_decimal, h]

theorem not_mem_caretRow : '\n' ∉ d.caretRow := by
  simp [caretRow, not_mem_spaces]

end Diagnostic

/-! ### What is pointed at -/

/-- What a diagnostic for a fault of the text `source` points at in the line `line`. -/
inductive Diagnostic.PointsInto (source : String) (f : Fault) (d : Diagnostic) (line : List Char) :
    Prop
  /-- The quote mark of a string that the line does not close. -/
  | opening {quote : Char} :
      tokenize source = .error f → f.cause = .unterminatedString quote →
        (line.drop (d.column - 1)).head? = some quote → PointsInto source f d line
  /-- The token to blame, which begins there. -/
  | token {t : Token} {raw after : List Char} :
      RefusedFor (.ofText source) f t → f.cause ≠ .missingRegex →
        t.span.start.line = d.line → t.span.start.column = d.column →
        Spells t.kind t.value.toList raw after → raw <+: line.drop (d.column - 1) →
        PointsInto source f d line
  /-- The end of a `~` behind which the pattern is missing. -/
  | missing {t : Token} {raw after : List Char} :
      RefusedFor (.ofText source) f t → f.cause = .missingRegex → t.value = "~" →
        t.span.stop.line = d.line → t.span.stop.column = d.column →
        Spells t.kind t.value.toList raw after → raw <:+ line.take (d.column - 1) →
        PointsInto source f d line

/-- A piece of a line that stands at the end of a text stands at the end of its last line. -/
theorem suffix_of_line {front before inside : List Char} (hraw : ∀ c ∈ raw, isLineBreak c = false)
    (hbefore : EndsWithFeed before) (h : front ++ raw = before ++ inside) : raw <:+ inside := by
  rcases List.append_eq_append_iff.mp h with ⟨between, rfl, rfl⟩ | ⟨between, rfl, rfl⟩
  · -- a piece that reached back over the line feed would hold it
    by_cases hnil : between = []
    · subst hnil
      exact List.suffix_refl inside
    · have hfeed := hbefore.of_append.mem hnil
      exact absurd (hraw '\n' (List.mem_append_left _ hfeed)) (by decide)
  · exact List.suffix_append between raw

/-- What stands in the line of a place right behind it. -/
theorem prefix_of_line {inside : List Char} (hraw : ∀ c ∈ raw, isLineBreak c = false)
    (more : List Char) :
    raw <+: (inside ++ (raw ++ more).takeWhile (!isLineBreak ·)).drop inside.length := by
  rw [List.drop_left, List.takeWhile_append_of_pos (by simpa using hraw)]
  exact List.prefix_append raw _

/-- The characters of a token stand right behind its start and right before its end. -/
theorem Token.StandsAt.around {mark : List Char} (h : t.StandsAt mark body i j) :
    (body.take j).drop i ++ body.drop j = body.drop i ∧
      body.take i ++ (body.take j).drop i = body.take j := by
  have hij := Nat.le_of_lt h.lt
  have hdrop := congrArg (List.drop i) (List.take_append_drop j body)
  have htake := List.take_append_drop i (body.take j)
  rw [List.drop_append_of_le_length (by rwa [List.length_take_of_le h.le])] at hdrop
  rw [List.take_take, Nat.min_eq_left hij] at htake
  exact ⟨hdrop, htake⟩

/-- The diagnostic `d` for a fault of the text `source` has a place in the line `line` of that text,
and there it points at what is wrong. -/
structure Diagnostic.StandsIn (source : String) (f : Fault) (d : Diagnostic) (line : List Char) :
    Prop where
  lineAt : LineAt source.toList d.line line
  one_le : 1 ≤ d.column
  le : d.column ≤ line.length + 1
  points : d.PointsInto source f line

namespace Fault

variable {source : String} {sourceName : Option String} {d : Diagnostic}

/-- A fault next to a character that breaks no line stands in the line of that character. -/
theorem exists_line (hreturns : ReturnsFed source.toList) (hd : d = f.diagnostic source sourceName)
    (hplace : f.place = .nth [] source.toList k) (hk : k ≤ source.toList.length) {c : Char}
    (hc : (source.toList.drop k).head? = some c ∨ (source.toList.take k).getLast? = some c)
    (hplain : isLineBreak c = false) :
    ∃ before inside, source.toList.take k = before ++ inside ∧ EndsWithFeed before ∧
      d.column - 1 = inside.length ∧
      (d.PointsInto source f (inside ++ (source.toList.drop k).takeWhile (!isLineBreak ·)) →
        ∃ line, d.StandsIn source f line) := by
  obtain ⟨before, inside, htake, hbefore, hcolumn, hline⟩ := exists_lineAt hreturns hk hc hplain []
  have hdline : d.line = f.place.line := congrArg Diagnostic.line hd
  have hdcolumn : d.column = f.place.column := congrArg Diagnostic.column hd
  -- the place counts as the line does: its column is one more than what stands before it there
  rw [← hplace, ← hdline] at hline
  rw [← hplace, ← hdcolumn] at hcolumn
  refine ⟨before, inside, htake, hbefore, by omega, fun hpoints => ⟨_, hline, ?_, ?_, hpoints⟩⟩
  · omega
  · rw [hcolumn, List.length_append]
    omega

/-- A string that its line does not close. -/
theorem standsIn_of_opensAt (hreturns : ReturnsFed source.toList)
    (hd : d = f.diagnostic source sourceName) (hfault : tokenize source = .error f)
    (hopens : f.OpensAt [] source.toList i) : ∃ line, d.StandsIn source f line := by
  obtain ⟨quote, hquote, hq, -, hf⟩ := hopens
  have hi := (List.getElem?_eq_some_iff.mp hquote).1
  rw [← List.head?_drop] at hquote
  obtain ⟨before, inside, -, -, hcolumn, hstands⟩ := exists_line hreturns hd (by rw [hf])
    (Nat.le_of_lt hi) (Or.inl hquote) hq.not_break
  obtain ⟨more, hdrop⟩ := List.head?_eq_some_iff.mp hquote
  refine hstands (.opening hfault (by rw [hf]) ?_)
  -- the quote mark itself breaks no line, so it is the first character behind the column
  rw [hcolumn, List.drop_left, hdrop, List.takeWhile_cons_of_pos (by simp [hq.not_break])]
  rfl

variable (hreturns : ReturnsFed source.toList) (hd : d = f.diagnostic source sourceName)
  (ht : RefusedFor (.ofText source) f t) (hat : t.StandsAt [] source.toList i j)
include hreturns hd ht hat

/-- A token that is blamed where it begins. -/
theorem standsIn_of_start (hcause : f.cause ≠ .missingRegex) (hplace : f.place = t.span.start) :
    ∃ line, d.StandsIn source f line := by
  have hraw := hat.spells.raw_not_break ht.kind_ne
  obtain ⟨c, cs, hcons⟩ := List.exists_cons_of_ne_nil hat.spells.ne_nil
  -- the first character of the token stands right behind the place
  have hhead : (source.toList.drop i).head? = some c := by
    rw [← hat.around.1, hcons]
    rfl
  obtain ⟨before, inside, -, -, hcolumn, hstands⟩ := exists_line hreturns hd
    (hplace.trans hat.start) (Nat.le_trans (Nat.le_of_lt hat.lt) hat.le) (Or.inl hhead)
    (hraw c (by rw [hcons]; exact List.mem_cons_self))
  refine hstands (.token ht hcause ?_ ?_ hat.spells ?_)
  · rw [hd, ← hplace]; rfl
  · rw [hd, ← hplace]; rfl
  · rw [hcolumn, ← hat.around.1]
    exact prefix_of_line hraw _

/-- A token that is blamed where it ends. -/
theorem standsIn_of_stop (hcause : f.cause = .missingRegex) (htilde : t.value = "~")
    (hplace : f.place = t.span.stop) : ∃ line, d.StandsIn source f line := by
  have hraw := hat.spells.raw_not_break ht.kind_ne
  obtain ⟨c, hc⟩ : ∃ c, ((source.toList.take j).drop i).getLast? = some c :=
    ⟨_, List.getLast?_eq_some_getLast hat.spells.ne_nil⟩
  -- the last character of the token stands right before the place
  have hlast : (source.toList.take j).getLast? = some c := by
    rw [← hat.around.2, List.getLast?_append, hc]
    rfl
  obtain ⟨before, inside, htake, hbefore, hcolumn, hstands⟩ := exists_line hreturns hd
    (hplace.trans hat.stop) hat.le (Or.inr hlast) (hraw c (List.mem_of_getLast? hc))
  refine hstands (.missing ht hcause htilde ?_ ?_ hat.spells ?_)
  · rw [hd, ← hplace]; rfl
  · rw [hd, ← hplace]; rfl
  · rw [hcolumn, List.take_left]
    exact suffix_of_line hraw hbefore (hat.around.2.trans htake)

end Fault

/-- Every fault stands in a line of its text. -/
theorem RuleFile.exists_standsIn [Regex.Dialect] {source : String}
    (hmark : source.toList.head? ≠ some byteOrderMark) (hreturns : ReturnsFed source.toList)
    (hf : parse source = .error f) (sourceName : Option String) :
    ∃ line, (f.diagnostic source sourceName).StandsIn source f line := by
  obtain ⟨htokens, hfault⟩ := (Cursor.standsAt_unmarked hmark).ofSteps
  rcases refusedFor_of_ofTokens hf with hstream | ⟨t, ht⟩
  · obtain ⟨i, hopens⟩ := hfault f hstream
    have htokenize := tokenize_eq_error_iff.mpr ⟨_, by rw [← hstream]⟩
    exact Fault.standsIn_of_opensAt hreturns rfl htokenize hopens
  · obtain ⟨i, j, hat⟩ := htokens t ht.mem
    rcases ht.place with ⟨hcause, hplace⟩ | ⟨hcause, htilde, hplace⟩
    · exact Fault.standsIn_of_start hreturns rfl ht hat hcause hplace
    · exact Fault.standsIn_of_stop hreturns rfl ht hat hcause htilde hplace

/-- **Diagnostics are exact.**  For a text without a byte order mark in which a line feed follows
every return, the diagnostic for a refusal shows the lines of the text that have the number of its
line or one next to it, in their order.  Its line is one of them, its column lies in that line or
right behind it, and there is what is wrong.  In its text the rows of the lines follow one another,
and right under that of its line is the row with the caret, which stands under the column. -/
theorem RuleFile.diagnostic_exact [Regex.Dialect] {source : String}
    (hmark : source.toList.head? ≠ some byteOrderMark) (hreturns : ReturnsFed source.toList)
    (hf : parse source = .error f) (sourceName : Option String) :
    let d := f.diagnostic source sourceName
    (∀ l : ContextLine, l ∈ d.context ↔
      (l.number + 1 = d.line ∨ l.number = d.line ∨ l.number = d.line + 1) ∧
        LineAt source.toList l.number l.text.toList) ∧
    d.context.Pairwise (·.number < ·.number) ∧
    ∃ above line below, d.context = above ++ ⟨d.line, line⟩ :: below ∧
      d.StandsIn source f line.toList ∧
      d.render.toList = joinRows (d.heading ++ above.map d.sourceRow) ++
        (d.sourceRow ⟨d.line, line⟩ ++ '\n' :: (d.caretRow ++ '\n' ::
          joinRows (below.map d.sourceRow))) ∧
      '\n' ∉ d.sourceRow ⟨d.line, line⟩ ∧ '\n' ∉ d.caretRow ∧
      CaretUnder line.toList d.column (d.sourceRow ⟨d.line, line⟩) d.caretRow := by
  intro d
  have hcontext : ∀ l : ContextLine, l ∈ d.context ↔
      (l.number + 1 = d.line ∨ l.number = d.line ∨ l.number = d.line + 1) ∧
        LineAt source.toList l.number l.text.toList := fun l => mem_contextLines hreturns
  have hascending : d.context.Pairwise (·.number < ·.number) := contextLines_ascending source d.line
  obtain ⟨line, hstands⟩ := exists_standsIn hmark hreturns hf sourceName
  rw [← String.toList_ofList (l := line)] at hstands
  -- the line that the fault stands in is one of those that are shown, and cuts them in two
  have hmem : ⟨d.line, String.ofList line⟩ ∈ d.context :=
    (hcontext _).mpr ⟨Or.inr (Or.inl rfl), hstands.lineAt⟩
  obtain ⟨above, below, hsplit⟩ := List.append_of_mem hmem
  have hfeed : '\n' ∉ (String.ofList line).toList := by
    obtain ⟨_, _, -, -, -, hplain, -⟩ := hstands.lineAt
    exact fun hfeed => absurd (hplain '\n' hfeed) (by decide)
  refine ⟨hcontext, hascending, above, String.ofList line, below, hsplit, hstands, ?_,
    Diagnostic.not_mem_sourceRow hfeed, Diagnostic.not_mem_caretRow,
    Diagnostic.caretUnder_rows hmem hstands.one_le⟩
  rw [Diagnostic.render_toList, Diagnostic.rows_eq hsplit hascending rfl, joinRows_append,
    joinRows_cons, joinRows_cons]

/-- A statement that is no rule, in a line whose number is wider than that of the line before. -/
def widerSample : String := "\n\n\n\n\n\n\n\nlog\r\n  a => b c\r\nlog"

theorem RuleFile.diagnostic_exact_widerSample :
    ∃ f, parse widerSample = .error f ∧
      (f.diagnostic widerSample none).StandsIn widerSample f "  a => b c".toList ∧
      (f.diagnostic widerSample none).render =
        "error: simple rule syntax error, expected `source => target`, got 4 token(s)\n" ++
        "  --> <input>:10:3\n" ++
        "   |\n" ++
        " 9 | log\n" ++
        "10 |   a => b c\n" ++
        "   |   ^\n" ++
        "11 | log\n" := by
  have hread : (match parse widerSample with
    | .ok _ => none
    | .error f => some f) = some ⟨.malformedRule 4, ⟨10, 3, 15⟩⟩ := by decide +kernel
  have hf : parse widerSample = .error ⟨.malformedRule 4, ⟨10, 3, 15⟩⟩ := by
    cases hparse : parse widerSample with
    | ok file =>
      rw [hparse] at hread
      cases hread
    | error f =>
      rw [hparse] at hread
      rw [Option.some.inj hread]
  obtain ⟨-, -, above, line, below, hcontext, hstands, -⟩ :=
    diagnostic_exact (by decide +kernel) (by decide +kernel) hf none
  have hmem : (⟨10, line⟩ : ContextLine) ∈ contextLines widerSample 10 := by
    rw [show contextLines widerSample 10 = _ from hcontext]
    exact List.mem_append_right _ List.mem_cons_self
  have hlines : contextLines widerSample 10 = [⟨9, "log"⟩, ⟨10, "  a => b c"⟩, ⟨11, "log"⟩] := by
    decide +kernel
  obtain rfl : line = "  a => b c" := by simpa [hlines] using hmem
  exact ⟨_, hf, hstands, by decide +kernel⟩

end HostRules
