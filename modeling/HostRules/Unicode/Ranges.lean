/-
HostRules/Unicode/Ranges.lean

Character properties as lists of code point ranges.  A range is a pair of its first
and its last code point; a property holds of the characters that one of its ranges
covers.  The property tables of this folder are lists of this kind, in ascending order
and without overlap.  Patterns know the characters of Unicode 16: word characters, decimal
digits and case variants are of that version.  All else is of Unicode 17.
-/

namespace HostRules.Unicode

/-- The first and the last code point of a range. -/
abbrev CodeRange := Nat × Nat

/-- Whether one of the ranges covers the character. -/
def covered (ranges : List CodeRange) (c : Char) : Bool :=
  ranges.any fun r => r.1 ≤ c.toNat && c.toNat ≤ r.2

end HostRules.Unicode
