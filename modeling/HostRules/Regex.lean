/-
HostRules/Regex.lean

A regular expression: a text with the pattern that it writes in a dialect.  The text determines
the pattern, so two regular expressions are equal when their texts are.
-/
import HostRules.Regex.Dialect

namespace HostRules

variable [Regex.Dialect]

/-- A text that writes a pattern, and that pattern. -/
structure Regex where
  source : String
  pattern : Regex.Dialect.Pattern
  reads : Regex.Dialect.read source.toList = .ok pattern

namespace Regex

/-- The regular expression that a text writes, or the reason why it writes none. -/
def ofSource (source : String) : Except String Regex :=
  match h : Dialect.read source.toList with
  | .ok pattern => .ok ⟨source, pattern, h⟩
  | .error reason => .error reason

@[ext] theorem ext {a b : Regex} (h : a.source = b.source) : a = b := by
  obtain ⟨s, p, hp⟩ := a
  obtain ⟨t, q, hq⟩ := b
  have hst : s = t := h
  subst hst
  have hpq : p = q := by
    rw [hp] at hq
    exact Except.ok.inj hq
  subst hpq
  rfl

instance : DecidableEq Regex := fun a b =>
  if h : a.source = b.source then isTrue (ext h) else isFalse fun hab => h (hab ▸ rfl)

theorem ofSource_source (r : Regex) : ofSource r.source = .ok r := by
  unfold ofSource
  split
  · exact congrArg Except.ok (ext rfl)
  · next h => exact absurd (r.reads.symm.trans h) nofun

theorem source_of_ofSource {text : String} {r : Regex} (h : ofSource text = .ok r) :
    r.source = text := by
  unfold ofSource at h
  split at h
  · have hr := Except.ok.inj h
    rw [← hr]
  · exact absurd h nofun

end Regex

end HostRules
