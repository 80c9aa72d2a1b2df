/-
HostRules/Proofs/Delimiters.lean

The slash that closes `/body/flags` is the last one of the text, whether a backslash escapes it or
not.  When it is escaped the body keeps the backslash, and so does the end of the regular expression
that is made of it, where it escapes nothing.

Design.  Which characters are escaped is told by reading on from a state, as in `escapeSlashesFrom`;
`escapedBehind` is the state behind a text.  Read from its start, a text leaves what follows escaped
exactly when the backslashes at its end are odd in number (`escapedBehind_eq_true_iff`), and the
backslashes that are put before slashes do not change that (`escapedBehind_escapeSlashesFrom`).

Main results: which texts are read as `/body/flags`, and what they become (`sourceOf_exact`); a text
without a closing slash that is read as one (`RuleFile.closing_slash_escaped`).
-/
import HostRules.Proofs.Slashes
import HostRules.Proofs.Spelling
import HostRules.Regex.Standard
import HostRules.Statement.Parse
import Mathlib.Algebra.Ring.Parity
import Mathlib.Data.List.Induction

namespace HostRules.Regex

variable {escaped : Bool} {text body flags rest : List Char}

/-! ### What a text escapes -/

/-- A text that ends in an odd number of backslashes, so that the last of them escapes what
follows. -/
def EndsOpen (text : List Char) : Prop := Odd (text.reverse.takeWhile (· == '\\')).length

instance (text : List Char) : Decidable (EndsOpen text) := inferInstanceAs (Decidable (Odd _))

/-- Whether the character behind a text stands behind a backslash that escapes it; `escaped` tells
whether the first character of the text does. -/
def escapedBehind (escaped : Bool) (text : List Char) : Bool :=
  text.foldl (fun escaped c => c == '\\' && !escaped) escaped

theorem escapedBehind_append (escaped : Bool) (text rest : List Char) :
    escapedBehind escaped (text ++ rest) = escapedBehind (escapedBehind escaped text) rest :=
  List.foldl_append

theorem escapedBehind_concat (escaped : Bool) (text : List Char) (c : Char) :
    escapedBehind escaped (text ++ [c]) = (c == '\\' && !escapedBehind escaped text) := by
  rw [escapedBehind_append]
  rfl

/-- What follows a text is escaped when the backslashes at its end are odd in number. -/
theorem escapedBehind_eq_true_iff (text : List Char) :
    escapedBehind false text = true ↔ EndsOpen text := by
  unfold EndsOpen
  -- from the end, where one more backslash turns the state and the number alike
  induction text using List.reverseRecOn with
  | nil => decide
  | append_singleton text c ih =>
    rw [escapedBehind_concat, List.reverse_append, List.reverse_singleton, List.singleton_append,
      List.takeWhile_cons]
    cases c == '\\' with
    | false => simp
    | true =>
      rw [Bool.true_and, if_pos rfl, List.length_cons, Nat.odd_add_one, ← ih]
      simp

/-- The backslashes that are put before slashes escape these and nothing else. -/
theorem escapedBehind_escapeSlashesFrom (escaped : Bool) (text : List Char) :
    escapedBehind escaped (escapeSlashesFrom escaped text) = escapedBehind escaped text := by
  induction text generalizing escaped with
  | nil => rfl
  | cons c cs ih =>
    rw [escapeSlashesFrom]
    split
    · next hbare =>
      -- the backslash that is put in is used up by its slash
      obtain ⟨rfl, rfl⟩ := hbare
      exact ih false
    · exact ih _

theorem SlashesEscaped.behind (h : SlashesEscaped escaped (text ++ rest)) :
    SlashesEscaped (escapedBehind escaped text) rest := by
  induction text generalizing escaped with
  | nil => exact h
  | cons c cs ih => exact ih h.2

/-! ### Flags and bodies -/

theorem splitAtLastSlash?_append (h : '/' ∉ flags) :
    splitAtLastSlash? (body ++ '/' :: flags) = some (body, flags) := by
  -- the last slash is the first one from the end, where only flags stand before it
  have hreverse : (body ++ '/' :: flags).reverse = flags.reverse ++ '/' :: body.reverse := by simp
  have hslash : ∀ c, ('/' :: body.reverse).head? = some c → c = '/' :=
    fun c hc => (Option.some.inj hc).symm
  obtain ⟨htake, hdrop⟩ := split_at_char (mt List.mem_reverse.mp h) hslash
  unfold splitAtLastSlash?
  rw [hreverse, htake, hdrop]
  simp

theorem slash_not_mem (h : ∀ c ∈ flags, isLiteralFlag c = true) : '/' ∉ flags :=
  fun hmem => absurd (h '/' hmem) (by decide)

/-- A text is read as `/body/flags` with the last slash for the closing one. -/
theorem delimited?_eq_some_iff : delimited? text = some (body, flags) ↔
    text = '/' :: (body ++ '/' :: flags) ∧ body ≠ [] ∧ flags ≠ [] ∧
      ∀ c ∈ flags, isLiteralFlag c = true := by
  -- with flags behind its last slash a text is cut there, and only empty parts are refused
  have hread : (∀ c ∈ flags, isLiteralFlag c = true) →
      delimited? ('/' :: (body ++ '/' :: flags)) =
        if body ≠ [] ∧ flags ≠ [] then some (body, flags) else none := by
    intro hflags
    unfold delimited?
    simp [splitAtLastSlash?_append (slash_not_mem hflags), List.all_eq_true.mpr hflags]
  constructor
  · intro h
    obtain ⟨rfl, hflags⟩ := delimited?_eq_some h
    rw [hread hflags] at h
    split at h
    · next hne => exact ⟨rfl, hne.1, hne.2, hflags⟩
    · cases h
  · rintro ⟨rfl, hbody, hne, hflags⟩
    rw [hread hflags, if_pos ⟨hbody, hne⟩]

/-- A text that is read as `/body/flags` ends in a backslash that escapes nothing exactly when its
body does. -/
theorem endsOpen_sourceOf (h : delimited? text = some (body, flags)) :
    EndsOpen (sourceOf text) ↔ EndsOpen body := by
  have hsource : sourceOf text = ('(' :: '?' :: flags ++ [')']) ++ escapeSlashes body := by
    unfold sourceOf
    rw [h]
    simp
  -- the parenthesis behind the flags leaves nothing escaped
  have hfront : escapedBehind false ('(' :: '?' :: flags ++ [')']) = false :=
    escapedBehind_concat _ _ _
  rw [hsource, ← escapedBehind_eq_true_iff, escapedBehind_append, hfront, escapeSlashes,
    escapedBehind_escapeSlashesFrom, escapedBehind_eq_true_iff]

/-- Where all slashes behind the first one are escaped, the body is closed by an escaped slash. -/
theorem endsOpen_body (h : delimited? text = some (body, flags)) (htext : text = '/' :: rest)
    (hrest : SlashesEscaped false rest) : EndsOpen body := by
  obtain ⟨heq, -⟩ := delimited?_eq_some h
  obtain rfl : rest = body ++ '/' :: flags := (List.cons.inj (htext.symm.trans heq)).2
  -- the closing slash is one of the escaped ones, so what escapes it ends the body
  rw [← escapedBehind_eq_true_iff]
  exact hrest.behind.1 rfl

/-- A text that is not read as `/body/flags`, with all slashes behind the first one escaped, is kept
but for a backslash before the first slash. -/
theorem sourceOf_escaped (h : delimited? ('/' :: rest) = none) (hrest : SlashesEscaped false rest) :
    sourceOf ('/' :: rest) = '\\' :: '/' :: rest := by
  unfold sourceOf
  rw [h]
  show '\\' :: '/' :: escapeSlashesFrom false rest = _
  rw [escapeSlashesFrom_of_escaped hrest]

/-- **The closing slash is the last one.**  A text is read as `/body/flags` exactly when it has that
form with its last slash for the closing one, escaped or not.  It then becomes its body with the
flags in front, which ends in a backslash that escapes nothing exactly when the closing slash is
escaped.  Of the texts whose slashes behind the first one are all escaped, those that are read in
this way are so read up to an escaped slash, and the others are kept as they are written. -/
theorem sourceOf_exact (text : List Char) :
    (∀ body flags, delimited? text = some (body, flags) ↔
      text = '/' :: (body ++ '/' :: flags) ∧ body ≠ [] ∧ flags ≠ [] ∧
        ∀ c ∈ flags, isLiteralFlag c = true) ∧
    (∀ body flags, delimited? text = some (body, flags) →
      sourceOf text = '(' :: '?' :: (flags ++ ')' :: escapeSlashes body) ∧
        (EndsOpen (sourceOf text) ↔ EndsOpen body)) ∧
    ∀ rest, text = '/' :: rest → SlashesEscaped false rest →
      (∀ body flags, delimited? text = some (body, flags) → EndsOpen body) ∧
        (delimited? text = none → sourceOf text = '\\' :: text) := by
  refine ⟨fun body flags => delimited?_eq_some_iff, ?_, ?_⟩
  · intro body flags h
    refine ⟨?_, endsOpen_sourceOf h⟩
    unfold sourceOf
    rw [h]
  · intro rest htext hrest
    refine ⟨fun body flags h => endsOpen_body h htext hrest, ?_⟩
    rintro h
    subst htext
    exact sourceOf_escaped h hrest

/-- A text closed by a bare slash, and one whose slashes are all escaped but the first. -/
theorem sourceOf_exact_pathSample :
    sourceOf "/a/i".toList = "(?i)a".toList ∧ ¬ EndsOpen (sourceOf "/a/i".toList) ∧
    sourceOf "/a\\/b".toList = "\\/a\\/b".toList := by
  obtain ⟨hread, hbecomes, -⟩ := sourceOf_exact "/a/i".toList
  obtain ⟨-, -, hkept⟩ := sourceOf_exact "/a\\/b".toList
  have hslash : delimited? "/a/i".toList = some (['a'], ['i']) :=
    (hread ['a'] ['i']).mpr ⟨rfl, by simp, by simp, List.forall_mem_singleton.mpr rfl⟩
  obtain ⟨hsource, hopen⟩ := hbecomes ['a'] ['i'] hslash
  have hescaped : SlashesEscaped false ['a', '\\', '/', 'b'] := by simp [SlashesEscaped]
  exact ⟨hsource, fun h => absurd (hopen.mp h) (by decide), (hkept _ rfl hescaped).2 (by decide)⟩

end HostRules.Regex

namespace HostRules.RuleFile

/-- The only slash behind the first one is escaped and yet closes the body, which is left with a
backslash that escapes nothing; so the file is refused. -/
theorem closing_slash_escaped :
    Regex.delimited? "/a\\/i".toList = some (['a', '\\'], ['i']) ∧ Regex.EndsOpen ['a', '\\'] ∧
    Regex.sourceOf "/a\\/i".toList = "(?i)a\\".toList ∧
    ∃ fault, parse "d.com => \x7b\nlocation ~ /a\\/i \x7b\x7d\n\x7d" = .error fault := by
  have hread : Regex.delimited? "/a\\/i".toList = some (['a', '\\'], ['i']) := by decide
  exact ⟨hread, by decide, by decide, exists_fault (by decide +kernel)⟩

end HostRules.RuleFile
