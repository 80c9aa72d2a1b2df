/-
HostRules/Proofs/Lines.lean

The lines of a text, and where a place lies in them.  `LineAt text number line` says of the text
alone that `line` is its line `number`: so many line feeds stand before it, it holds no line break,
and one follows, or the end of the text.  In a text in which a line feed follows every return, the
lines that a diagnostic shows are these lines (`mem_contextLines`), and the line and the column of a
place count the line feeds before it and the characters since the last of them
(`Position.nth_split`).

Main result: a place that touches a character of a line is told by the number of that line and the
place of the character in it (`exists_lineAt`).
-/
import HostRules.Proofs.Coordinates
import HostRules.Text.Lines

namespace HostRules

variable {text front rest before inside content after line mark more : List Char} {n k : Nat}

/-! ### Lines -/

/-- A line feed follows every return. -/
def ReturnsFed (text : List Char) : Prop := ∀ i, text[i]? = some '\r' → text[i + 1]? = some '\n'

/-- The line with a number, told by the text alone.  Nothing is no line where the text ends. -/
def LineAt (text : List Char) (number : Nat) (line : List Char) : Prop :=
  ∃ before after, text = before ++ (line ++ after) ∧ EndsWithFeed before ∧
    before.count '\n' + 1 = number ∧ (∀ c ∈ line, isLineBreak c = false) ∧
    (line ≠ [] ∧ after = [] ∨ ['\n'] <+: after ∨ ['\r', '\n'] <+: after)

instance (text : List Char) : Decidable (ReturnsFed text) :=
  decidable_of_iff (∀ i < text.length, text[i]? = some '\r' → text[i + 1]? = some '\n')
    ⟨fun h i hi => h i (List.getElem?_eq_some_iff.mp hi).1 hi, fun h i _ => h i⟩

theorem ReturnsFed.behind (h : ReturnsFed (front ++ rest)) : ReturnsFed rest := by
  intro i hi
  have hfed := h (front.length + i)
  rw [Nat.add_assoc, List.getElem?_append_right (Nat.le_add_right _ _),
    List.getElem?_append_right (Nat.le_add_right _ _), Nat.add_sub_cancel_left,
    Nat.add_sub_cancel_left] at hfed
  exact hfed hi

theorem ReturnsFed.next (h : ReturnsFed (before ++ '\r' :: after)) : after.head? = some '\n' := by
  rw [List.head?_eq_getElem?]
  exact h.behind 0 rfl

theorem EndsWithFeed.behind_feed (h : EndsWithFeed before) (front : List Char) :
    EndsWithFeed (front ++ '\n' :: before) := by
  intro c hc
  rw [List.getLast?_append, List.getLast?_cons] at hc
  cases hlast : before.getLast? with
  | none =>
    rw [hlast] at hc
    exact (Option.some.inj hc).symm
  | some d =>
    rw [hlast] at hc
    exact h c (hlast.trans hc)

/-! ### The lines that are shown -/

theorem linesOf_feed (h : '\n' ∉ content) (more : List Char) :
    linesOf (content ++ '\n' :: more) = content :: linesOf more := by
  induction content with
  | nil => rfl
  | cons c cs ih =>
    obtain ⟨hc, hcs⟩ : '\n' ≠ c ∧ '\n' ∉ cs := by simpa using h
    rw [List.cons_append, linesOf_cons, ih hcs]
    exact if_neg hc.symm

theorem linesOf_last (h : '\n' ∉ content) (hne : content ≠ []) : linesOf content = [content] := by
  induction content with
  | nil => exact absurd rfl hne
  | cons c cs ih =>
    obtain ⟨hc, hcs⟩ : '\n' ≠ c ∧ '\n' ∉ cs := by simpa using h
    rw [linesOf_cons]
    cases cs with
    | nil => exact if_neg hc.symm
    | cons d ds =>
      rw [ih hcs (List.cons_ne_nil d ds)]
      exact if_neg hc.symm

/-- Behind a line feed the lines go on, and as many stand before as there are line feeds. -/
theorem linesOf_append (h : EndsWithFeed before) (more : List Char) :
    linesOf (before ++ more) = linesOf before ++ linesOf more ∧
      (linesOf before).length = before.count '\n' := by
  -- one line at a time: what is left behind its line feed is shorter and ends with one too
  induction hlength : before.length using Nat.strongRecOn generalizing before with
  | ind _ ih =>
  subst hlength
  by_cases hne : before = []
  · subst hne
    exact ⟨rfl, rfl⟩
  · obtain ⟨content, tail, rfl, hcontent⟩ := List.eq_append_cons_of_mem (h.mem hne)
    have htail : EndsWithFeed tail := by
      rw [List.append_cons] at h
      exact h.of_append
    obtain ⟨hlines, hcount⟩ := ih tail.length (by simp; omega) htail rfl
    have hnone : content.count '\n' = 0 := List.count_eq_zero.mpr hcontent
    refine ⟨?_, ?_⟩
    · rw [List.append_assoc, List.cons_append, linesOf_feed hcontent, hlines,
        linesOf_feed hcontent]
      rfl
    · rw [linesOf_feed hcontent, List.length_cons, hcount, List.count_append, hnone,
        List.count_cons_self, Nat.zero_add]

/-- Where a line stands in its text. -/
theorem exists_of_getElem?_linesOf (h : (linesOf text)[n]? = some content) :
    ∃ before after, text = before ++ (content ++ after) ∧ EndsWithFeed before ∧
      before.count '\n' = n ∧ '\n' ∉ content ∧
      (content ≠ [] ∧ after = [] ∨ after.head? = some '\n') := by
  induction n generalizing text with
  | zero =>
    by_cases hfeed : '\n' ∈ text
    · obtain ⟨first, more, rfl, hfirst⟩ := List.eq_append_cons_of_mem hfeed
      rw [linesOf_feed hfirst] at h
      obtain rfl := Option.some.inj h
      exact ⟨[], '\n' :: more, rfl, nofun, rfl, hfirst, Or.inr rfl⟩
    · cases text with
      | nil => cases h
      | cons c cs =>
        rw [linesOf_last hfeed (List.cons_ne_nil c cs)] at h
        obtain rfl := Option.some.inj h
        exact ⟨[], [], by simp, nofun, rfl, hfeed, Or.inl ⟨List.cons_ne_nil c cs, rfl⟩⟩
  | succ n ih =>
    by_cases hfeed : '\n' ∈ text
    · obtain ⟨first, more, rfl, hfirst⟩ := List.eq_append_cons_of_mem hfeed
      rw [linesOf_feed hfirst, List.getElem?_cons_succ] at h
      obtain ⟨before, after, rfl, hbefore, hcount, hcontent, hafter⟩ := ih h
      refine ⟨first ++ '\n' :: before, after, by simp, hbefore.behind_feed first, ?_, hcontent,
        hafter⟩
      rw [List.count_append, List.count_eq_zero.mpr hfirst, List.count_cons_self, hcount,
        Nat.zero_add]
    · cases text with
      | nil => cases h
      | cons c cs =>
        rw [linesOf_last hfeed (List.cons_ne_nil c cs)] at h
        cases h

/-- Where a line feed follows every return, only the end of a line is one. -/
theorem ReturnsFed.line_end (h : ReturnsFed (content ++ after)) (hfeed : '\n' ∉ content) :
    (∀ c ∈ content, isLineBreak c = false) ∨
      ∃ line, content = line ++ ['\r'] ∧ (∀ c ∈ line, isLineBreak c = false) ∧
        after.head? = some '\n' := by
  have hplain : ∀ {part : List Char}, '\n' ∉ part → '\r' ∉ part →
      ∀ c ∈ part, isLineBreak c = false := by
    intro part hn hr c hc
    cases hb : isLineBreak c with
    | false => rfl
    | true =>
      have hb' : c = '\r' ∨ c = '\n' := by simpa [isLineBreak] using hb
      rcases hb' with rfl | rfl
      · exact absurd hc hr
      · exact absurd hc hn
  by_cases hreturn : '\r' ∈ content
  · right
    obtain ⟨line, more, rfl, hline⟩ := List.eq_append_cons_of_mem hreturn
    rw [List.append_assoc, List.cons_append] at h
    have hnext := h.next
    have hline' : '\n' ∉ line := fun hmem => hfeed (List.mem_append_left _ hmem)
    cases more with
    | nil => exact ⟨line, rfl, hplain hline' hline, hnext⟩
    | cons c cs =>
      obtain rfl : c = '\n' := Option.some.inj hnext
      exact absurd (by simp) hfeed
  · exact Or.inl (hplain hfeed hreturn)

theorem trimReturns_plain (h : ∀ c ∈ line, isLineBreak c = false) : trimReturns line = line := by
  have hhead : ∀ c, line.reverse.head? = some c → (c == '\r') = false := by
    intro c hc
    have hplain := h c (List.mem_reverse.mp (List.mem_of_mem_head? hc))
    cases hr : c == '\r' with
    | false => rfl
    | true =>
      rw [eq_of_beq hr] at hplain
      exact absurd hplain (by decide)
  have hkeep := dropWhile_append_of_ends (List.forall_mem_nil _) hhead
  rw [trimReturns, show line.reverse.dropWhile (· == '\r') = line.reverse from hkeep,
    List.reverse_reverse]

theorem trimReturns_return (h : ∀ c ∈ line, isLineBreak c = false) :
    trimReturns (line ++ ['\r']) = line := by
  have hdrop : trimReturns (line ++ ['\r']) = trimReturns line := by
    simp [trimReturns]
  rw [hdrop, trimReturns_plain h]

/-- The lines of a text, without the returns at their ends, are those the text tells. -/
theorem lineAt_iff (h : ReturnsFed text) :
    LineAt text (n + 1) line ↔
      ∃ content, (linesOf text)[n]? = some content ∧ trimReturns content = line := by
  constructor
  · rintro ⟨before, after, rfl, hbefore, hcount, hline, hafter⟩
    obtain ⟨hlines, hlength⟩ := linesOf_append hbefore (line ++ after)
    obtain rfl : before.count '\n' = n := Nat.succ.inj hcount
    have hget : (linesOf (before ++ (line ++ after)))[before.count '\n']? =
        (linesOf (line ++ after))[0]? := by
      rw [hlines, ← hlength, List.getElem?_append_right (Nat.le_refl _), Nat.sub_self]
    have hfeed : '\n' ∉ line := fun hmem => absurd (hline '\n' hmem) (by decide)
    rw [hget]
    -- the line ends with the text, with a line feed, or with a return before one
    rcases hafter with ⟨hne, rfl⟩ | ⟨more, rfl⟩ | ⟨more, rfl⟩
    · rw [List.append_nil, linesOf_last hfeed hne]
      exact ⟨line, rfl, trimReturns_plain hline⟩
    · rw [List.singleton_append, linesOf_feed hfeed]
      exact ⟨line, rfl, trimReturns_plain hline⟩
    · have hsplit : line ++ (['\r', '\n'] ++ more) = (line ++ ['\r']) ++ '\n' :: more := by simp
      rw [hsplit, linesOf_feed (by simpa using hfeed)]
      exact ⟨line ++ ['\r'], rfl, trimReturns_return hline⟩
  · rintro ⟨content, hget, rfl⟩
    obtain ⟨before, after, rfl, hbefore, rfl, hfeed, hafter⟩ := exists_of_getElem?_linesOf hget
    rcases h.behind.line_end hfeed with hplain | ⟨line, rfl, hline, hnext⟩
    · rw [trimReturns_plain hplain]
      refine ⟨before, after, rfl, hbefore, rfl, hplain, ?_⟩
      rcases hafter with hend | hnext
      · exact Or.inl hend
      · obtain ⟨more, rfl⟩ := List.head?_eq_some_iff.mp hnext
        exact Or.inr (Or.inl ⟨more, rfl⟩)
    · rw [trimReturns_return hline]
      obtain ⟨more, rfl⟩ := List.head?_eq_some_iff.mp hnext
      exact ⟨before, '\r' :: '\n' :: more, by simp, hbefore, rfl, hline,
        Or.inr (Or.inr ⟨more, rfl⟩)⟩

/-- The lines that are shown for a line are that line and its neighbours. -/
theorem mem_contextLines {source : String} (h : ReturnsFed source.toList) {number : Nat}
    {l : ContextLine} :
    l ∈ contextLines source number ↔
      (l.number + 1 = number ∨ l.number = number ∨ l.number = number + 1) ∧
        LineAt source.toList l.number l.text.toList := by
  unfold contextLines
  rw [List.mem_filterMap]
  constructor
  · rintro ⟨⟨content, i⟩, hmem, hsome⟩
    obtain ⟨hi, hget⟩ := List.mk_mem_zipIdx_iff_le_and_getElem?_sub.mp hmem
    dsimp only at hsome
    split at hsome
    · next hnear =>
      obtain rfl := Option.some.inj hsome
      refine ⟨by dsimp only; omega, ?_⟩
      have hline := (lineAt_iff h).mpr ⟨content, hget, rfl⟩
      rw [Nat.sub_add_cancel hi] at hline
      rwa [String.toList_ofList]
    · cases hsome
  · rintro ⟨hnear, hline⟩
    have hpos : l.number - 1 + 1 = l.number := by
      obtain ⟨_, _, -, -, hcount, -⟩ := hline
      omega
    rw [← hpos] at hline
    obtain ⟨content, hget, htrim⟩ := (lineAt_iff h).mp hline
    have hmem := List.mk_mem_zipIdx_iff_le_and_getElem?_sub.mpr ⟨by omega, hget⟩
    refine ⟨(content, l.number), hmem, ?_⟩
    dsimp only
    rw [if_pos (by omega), htrim, String.ofList_toList]

theorem contextLines_ascending (source : String) (number : Nat) :
    (contextLines source number).Pairwise (·.number < ·.number) := by
  have hpairs : ((linesOf source.toList).zipIdx 1).Pairwise (·.2 < ·.2) := by
    rw [← List.pairwise_map, List.zipIdx_map_snd]
    exact List.pairwise_lt_range' 1
  refine hpairs.filterMap _ ?_
  rintro ⟨content, i⟩ ⟨content', i'⟩ hless l hl l' hl'
  dsimp only at hl hl'
  split at hl
  · split at hl'
    · cases hl
      cases hl'
      exact hless
    · cases hl'
  · cases hl

/-! ### Places in lines -/

/-- Where a line feed follows every return, only line feeds break the line. -/
theorem ReturnsFed.breakAt_iff (h : ReturnsFed text) : BreakAt text k ↔ text[k]? = some '\n' := by
  refine ⟨?_, Or.inl⟩
  rintro (hfeed | ⟨hreturn, hnext⟩)
  · exact hfeed
  · exact absurd (h k hreturn) hnext

theorem ReturnsFed.breaksBefore_eq (h : ReturnsFed text) (k : Nat) :
    breaksBefore text k = (text.take k).count '\n' := by
  induction k with
  | zero => rfl
  | succ k ih =>
    rw [breaksBefore_succ, ih, List.take_add_one, List.count_append]
    congr 1
    simp only [h.breakAt_iff]
    cases text[k]? with
    | none => rfl
    | some c => simp [List.count_singleton]

/-- Behind a line feed, a column counts the characters of its line. -/
theorem ReturnsFed.sinceBreak_eq (h : ReturnsFed (before ++ (inside ++ rest)))
    (hbefore : EndsWithFeed before) (hinside : '\n' ∉ inside) (hn : n ≤ inside.length) :
    sinceBreak (before ++ (inside ++ rest)) (before.length + n) = n := by
  induction n with
  | zero =>
    rcases List.eq_nil_or_concat before with rfl | ⟨front, c, rfl⟩
    · rfl
    · obtain rfl : c = '\n' := hbefore c (by simp)
      rw [List.concat_eq_append] at h ⊢
      rw [Nat.add_zero, List.length_append, List.length_singleton, sinceBreak_succ]
      exact if_pos (h.breakAt_iff.mpr (by simp))
  | succ n ih =>
    have hplain : ¬ BreakAt (before ++ (inside ++ rest)) (before.length + n) := by
      rw [h.breakAt_iff, List.getElem?_append_right (Nat.le_add_right _ _), Nat.add_sub_cancel_left,
        List.getElem?_append_left hn]
      exact fun hfeed => hinside (List.mem_of_getElem? hfeed)
    rw [← Nat.add_assoc, sinceBreak_succ, if_neg hplain, ih (Nat.le_of_succ_le hn)]

/-- The place behind `inside` in its line. -/
theorem Position.nth_split (mark : List Char) (h : ReturnsFed (before ++ (inside ++ rest)))
    (hbefore : EndsWithFeed before) (hinside : '\n' ∉ inside) :
    let p := nth mark (before ++ (inside ++ rest)) (before.length + inside.length)
    p.line = before.count '\n' + 1 ∧ p.column = inside.length + 1 := by
  refine ⟨?_, ?_⟩
  · show 1 + breaksBefore _ _ = _
    have htake : (before ++ (inside ++ rest)).take (before.length + inside.length) =
        before ++ inside := by
      rw [← List.append_assoc, ← List.length_append, List.take_left]
    rw [h.breaksBefore_eq, htake, List.count_append, List.count_eq_zero.mpr hinside,
      Nat.add_zero, Nat.add_comm]
  · show 1 + sinceBreak _ _ = _
    rw [h.sinceBreak_eq hbefore hinside (Nat.le_refl _), Nat.add_comm]

/-- Every text ends in a line, which may have nothing in it. -/
theorem exists_last_line (text : List Char) :
    ∃ before inside, text = before ++ inside ∧ EndsWithFeed before ∧ '\n' ∉ inside := by
  induction text with
  | nil => exact ⟨[], [], rfl, nofun, List.not_mem_nil⟩
  | cons c cs ih =>
    obtain ⟨before, inside, rfl, hbefore, hinside⟩ := ih
    by_cases hc : c = '\n'
    · subst hc
      exact ⟨'\n' :: before, inside, rfl, hbefore.behind_feed [], hinside⟩
    · cases before with
      | nil => exact ⟨[], c :: inside, rfl, nofun, by simp [hinside, Ne.symm hc]⟩
      | cons d ds => exact ⟨c :: d :: ds, inside, rfl, hbefore, hinside⟩

/-- A character that breaks no line, at the end of a piece without a line feed or right behind it,
leaves no line break to the piece. -/
theorem ReturnsFed.plain (h : ReturnsFed (content ++ after)) (hfeed : '\n' ∉ content) {c : Char}
    (hc : after.head? = some c ∨ content.getLast? = some c) (hplain : isLineBreak c = false) :
    ∀ d ∈ content, isLineBreak d = false := by
  rcases h.line_end hfeed with hcontent | ⟨line, rfl, -, hnext⟩
  · exact hcontent
  · -- the piece ends with a return, and a line feed follows
    have hbreak : c = '\n' ∨ c = '\r' := by
      rw [hnext, List.getLast?_concat] at hc
      exact hc.imp (Option.some.inj ·.symm) (Option.some.inj ·.symm)
    rcases hbreak with rfl | rfl <;> exact absurd hplain (by decide)

/-- What stands behind a piece of a line that goes on as far as it can. -/
theorem ReturnsFed.behind_line (h : ReturnsFed text) :
    text.dropWhile (!isLineBreak ·) = [] ∨ ['\n'] <+: text.dropWhile (!isLineBreak ·) ∨
      ['\r', '\n'] <+: text.dropWhile (!isLineBreak ·) := by
  have hsplit := List.takeWhile_append_dropWhile (p := (!isLineBreak ·)) (l := text)
  cases hafter : text.dropWhile (!isLineBreak ·) with
  | nil => exact Or.inl rfl
  | cons d more =>
    right
    have hd : isLineBreak d = true := by
      have hhead := not_of_head?_dropWhile (c := d) (p := (!isLineBreak ·)) (by rw [hafter]; rfl)
      simpa using hhead
    have hd' : d = '\r' ∨ d = '\n' := by simpa [isLineBreak] using hd
    rcases hd' with rfl | rfl
    · rw [← hsplit, hafter] at h
      obtain ⟨more, rfl⟩ := List.head?_eq_some_iff.mp h.next
      exact Or.inr ⟨more, rfl⟩
    · exact Or.inl ⟨more, rfl⟩

/-- **A place in a line.**  A place with a character that breaks no line right behind it or right
before it is told by the line of that character: it has the number of that line, and its column is
one more than the characters of the line that stand before it. -/
theorem exists_lineAt (h : ReturnsFed text) (hk : k ≤ text.length) {c : Char}
    (hc : (text.drop k).head? = some c ∨ (text.take k).getLast? = some c)
    (hplain : isLineBreak c = false) (mark : List Char) :
    ∃ before inside, text.take k = before ++ inside ∧ EndsWithFeed before ∧
      (Position.nth mark text k).column = inside.length + 1 ∧
      LineAt text (Position.nth mark text k).line
        (inside ++ (text.drop k).takeWhile (!isLineBreak ·)) := by
  obtain ⟨front, rest, rfl, rfl⟩ : ∃ front rest, text = front ++ rest ∧ k = front.length :=
    ⟨text.take k, text.drop k, (List.take_append_drop k text).symm,
      (List.length_take_of_le hk).symm⟩
  rw [List.take_left, List.drop_left] at *
  obtain ⟨before, inside, rfl, hbefore, hfeed⟩ := exists_last_line front
  rw [List.append_assoc] at h
  -- before the line stands a line feed, so that the character is in the line
  have hc' : rest.head? = some c ∨ inside.getLast? = some c := by
    refine hc.imp_right fun hlast => ?_
    rw [List.getLast?_append] at hlast
    cases hend : inside.getLast? with
    | some d => rwa [hend] at hlast
    | none =>
      rw [hend] at hlast
      obtain rfl := hbefore c hlast
      exact absurd hplain (by decide)
  have hne : rest.dropWhile (!isLineBreak ·) = [] →
      inside ++ rest.takeWhile (!isLineBreak ·) ≠ [] := by
    intro hend hnil
    obtain ⟨rfl, htail⟩ := List.append_eq_nil_iff.mp hnil
    have hrest := List.takeWhile_append_dropWhile (p := (!isLineBreak ·)) (l := rest)
    rw [htail, hend] at hrest
    subst hrest
    rcases hc' with hhead | hlast
    · cases hhead
    · cases hlast
  have hplace := Position.nth_split mark h hbefore hfeed
  rw [← List.append_assoc, ← List.length_append] at hplace
  refine ⟨before, inside, rfl, hbefore, hplace.2, before, rest.dropWhile (!isLineBreak ·), ?_,
    hbefore, hplace.1.symm, ?_, ?_⟩
  · rw [List.append_assoc, List.append_assoc, List.takeWhile_append_dropWhile]
  · intro d hd
    rcases List.mem_append.mp hd with hd | hd
    · exact h.behind.plain hfeed hc' hplain d hd
    · simpa using List.all_eq_true.mp List.all_takeWhile d hd
  · rcases h.behind.behind.behind_line with hend | hbreak
    · exact Or.inl ⟨hne hend, hend⟩
    · exact Or.inr hbreak

end HostRules
