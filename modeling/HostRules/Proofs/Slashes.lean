/-
HostRules/Proofs/Slashes.lean

The sources of regular expressions.  A text is normal when each of its slashes stands behind a
backslash that escapes it (`SlashesEscaped`).  The source that a rule file's text is turned into
is normal, and a normal text is turned into itself, so turning a text into a source twice is
turning it once (`sourceOf_sourceOf`).
-/
import HostRules.Regex.Delimited

namespace HostRules.Regex

variable {escaped : Bool} {text body flags front : List Char} {c : Char}

/-! ### Escaped slashes -/

/-- Every slash stands behind a backslash that escapes it; `escaped` tells whether the first
character does. -/
def SlashesEscaped : (escaped : Bool) → List Char → Prop
  | _, [] => True
  | escaped, c :: cs => (c = '/' → escaped = true) ∧ SlashesEscaped (c == '\\' && !escaped) cs

theorem escapeSlashesFrom_of_escaped (h : SlashesEscaped escaped text) :
    escapeSlashesFrom escaped text = text := by
  induction text generalizing escaped with
  | nil => rfl
  | cons c cs ih =>
    obtain ⟨hc, hcs⟩ := h
    have hbare : ¬ (c = '/' ∧ escaped = false) := by
      rintro ⟨hslash, hfalse⟩
      rw [hc hslash] at hfalse
      cases hfalse
    rw [escapeSlashesFrom, if_neg hbare, ih hcs]

theorem slashesEscaped_escapeSlashesFrom (escaped : Bool) (text : List Char) :
    SlashesEscaped escaped (escapeSlashesFrom escaped text) := by
  induction text generalizing escaped with
  | nil => trivial
  | cons c cs ih =>
    rw [escapeSlashesFrom]
    split
    · next hbare =>
      -- behind the new backslash the slash is escaped, and it escapes nothing itself
      obtain ⟨rfl, rfl⟩ := hbare
      exact ⟨nofun, fun _ => rfl, ih _⟩
    · next hbare =>
      refine ⟨fun hslash => ?_, ih _⟩
      simpa [hslash] using hbare

theorem SlashesEscaped.head?_ne (h : SlashesEscaped false text) : text.head? ≠ some '/' := by
  cases text with
  | nil => nofun
  | cons c cs =>
    intro hhead
    exact absurd (h.1 (Option.some.inj hhead)) nofun

/-- Characters that are neither slashes nor backslashes can stand in front. -/
theorem SlashesEscaped.append (hfront : ∀ c ∈ front, c ≠ '/' ∧ c ≠ '\\')
    (h : SlashesEscaped false text) : SlashesEscaped false (front ++ text) := by
  induction front with
  | nil => exact h
  | cons c cs ih =>
    obtain ⟨⟨hslash, hback⟩, hcs⟩ := List.forall_mem_cons.mp hfront
    have hescapes : (c == '\\' && !false) = false := by simp [hback]
    refine ⟨fun hc => absurd hc hslash, ?_⟩
    rw [hescapes]
    exact ih hcs

theorem mem_escapeSlashesFrom (h : c ∈ escapeSlashesFrom escaped text) : c ∈ text ∨ c = '\\' := by
  induction text generalizing escaped with
  | nil => cases h
  | cons d ds ih =>
    rw [escapeSlashesFrom] at h
    split at h <;> simp only [List.mem_cons] at h ⊢
    · rcases h with rfl | rfl | h
      · exact Or.inr rfl
      · exact Or.inl (Or.inl rfl)
      · exact (ih h).imp_left Or.inr
    · rcases h with rfl | h
      · exact Or.inl (Or.inl rfl)
      · exact (ih h).imp_left Or.inr

/-! ### Texts between slashes -/

theorem splitAtLastSlash?_eq_some {before behind : List Char}
    (h : splitAtLastSlash? text = some (before, behind)) :
    text = before ++ '/' :: behind ∧ '/' ∉ behind := by
  have hparts := List.takeWhile_append_dropWhile (p := (· != '/')) (l := text.reverse)
  unfold splitAtLastSlash? at h
  cases hdrop : text.reverse.dropWhile (· != '/') with
  | nil =>
    rw [hdrop] at h
    cases h
  | cons d ds =>
    rw [hdrop] at h hparts
    cases h
    -- what ends the part without slashes is a slash
    have hd : d = '/' := by
      have hnot := List.head?_dropWhile_not (· != '/') text.reverse
      rw [hdrop] at hnot
      simpa using hnot
    constructor
    · have htext := congrArg List.reverse hparts
      simpa [hd] using htext.symm
    · intro hmem
      have hne := List.all_eq_true.mp List.all_takeWhile '/' (List.mem_reverse.mp hmem)
      exact absurd hne (by decide)

theorem delimited?_eq_some (h : delimited? text = some (body, flags)) :
    text = '/' :: (body ++ '/' :: flags) ∧ ∀ c ∈ flags, isLiteralFlag c = true := by
  unfold delimited? at h
  split at h
  · next rest =>
    split at h
    · next before behind hsplit =>
      split at h
      · next hvalid =>
        cases h
        simp only [Bool.and_eq_true, List.all_eq_true] at hvalid
        obtain ⟨rfl, -⟩ := splitAtLastSlash?_eq_some hsplit
        exact ⟨rfl, hvalid.2⟩
      · cases h
    · cases h
  · cases h

theorem delimited?_of_head? (h : text.head? ≠ some '/') : delimited? text = none := by
  unfold delimited?
  split
  · exact absurd rfl h
  · rfl

/-! ### Sources -/

/-- In the source of a regular expression every slash is escaped. -/
theorem slashesEscaped_sourceOf (text : List Char) : SlashesEscaped false (sourceOf text) := by
  unfold sourceOf
  split
  · next body flags hdelimited =>
    obtain ⟨-, hflags⟩ := delimited?_eq_some hdelimited
    have hfront : ∀ c ∈ '(' :: '?' :: (flags ++ [')']), c ≠ '/' ∧ c ≠ '\\' := by
      intro c hc
      simp only [List.mem_cons, List.mem_append, List.not_mem_nil, or_false] at hc
      rcases hc with rfl | rfl | hc | rfl
      · decide
      · decide
      · have hflag := hflags c hc
        constructor <;> rintro rfl <;> exact absurd hflag (by decide)
      · decide
    have hsource := SlashesEscaped.append hfront (slashesEscaped_escapeSlashesFrom false body)
    simpa [escapeSlashes] using hsource
  · exact slashesEscaped_escapeSlashesFrom false text

/-- A text with all its slashes escaped is the source that it is turned into. -/
theorem sourceOf_of_escaped (h : SlashesEscaped false text) : sourceOf text = text := by
  unfold sourceOf
  rw [delimited?_of_head? h.head?_ne]
  exact escapeSlashesFrom_of_escaped h

theorem sourceOf_sourceOf (text : List Char) : sourceOf (sourceOf text) = sourceOf text :=
  sourceOf_of_escaped (slashesEscaped_sourceOf text)

/-- A source has the characters of its text and the signs that escape slashes and set flags. -/
theorem mem_sourceOf (h : c ∈ sourceOf text) : c ∈ text ∨ c ∈ ['\\', '(', '?', ')'] := by
  unfold sourceOf at h
  split at h
  · next body flags hdelimited =>
    obtain ⟨rfl, -⟩ := delimited?_eq_some hdelimited
    simp only [List.mem_cons, List.mem_append] at h ⊢
    rcases h with rfl | rfl | h | rfl | h
    · simp
    · simp
    · simp [h]
    · simp
    · rcases mem_escapeSlashesFrom h with h | rfl
      · simp [h]
      · simp
  · rcases mem_escapeSlashesFrom h with h | rfl
    · exact Or.inl h
    · simp

end HostRules.Regex
