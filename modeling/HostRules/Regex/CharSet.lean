/-
HostRules/Regex/CharSet.lean

Sets of characters, as ranges of code points in ascending order with a gap between each range
and the next.  Each set has one form of this kind, so sets can be compared and counted by
their ranges.
-/
import HostRules.Unicode.CaseFold
import HostRules.Unicode.WhiteSpace
import HostRules.Unicode.Word

namespace HostRules.Regex

open Unicode (CodeRange)

/-! ### Lists of ranges -/

/-- Ranges in ascending order from `start` on, with a gap between each and the next. -/
def Separated (start : Nat) : List CodeRange → Prop
  | [] => True
  | r :: rs => start ≤ r.1 ∧ r.1 ≤ r.2 ∧ Separated (r.2 + 2) rs

/-- Whether a code point is in one of some ascending ranges. -/
def inRanges : List CodeRange → Nat → Bool
  | [], _ => false
  | r :: rs, n => r.1 ≤ n && (n ≤ r.2 || inRanges rs n)

/-- Adds a range, which swallows the ranges that it meets. -/
def insertRange (r : CodeRange) : List CodeRange → List CodeRange
  | [] => [r]
  | x :: xs =>
    if r.2 + 1 < x.1 then r :: x :: xs
    else if x.2 + 1 < r.1 then x :: insertRange r xs
    else insertRange (min r.1 x.1, max r.2 x.2) xs

/-- The last code point. -/
def lastCode : Nat := 0x10ffff

/-- The ranges between some ascending ranges, from `start` on. -/
def gapsFrom (start : Nat) : List CodeRange → List CodeRange
  | [] => if start ≤ lastCode then [(start, lastCode)] else []
  | r :: rs =>
    if start < r.1 then (start, r.1 - 1) :: gapsFrom (r.2 + 1) rs else gapsFrom (r.2 + 1) rs

theorem Separated.weaken {start start' : Nat} {rs : List CodeRange} (h : Separated start rs)
    (hs : start' ≤ start) : Separated start' rs := by
  cases rs with
  | nil => trivial
  | cons r rs => exact ⟨Nat.le_trans hs h.1, h.2⟩

theorem separated_insertRange {start : Nat} {r : CodeRange} {rs : List CodeRange}
    (h : Separated start rs) (hs : start ≤ r.1) (hr : r.1 ≤ r.2) :
    Separated start (insertRange r rs) := by
  induction rs generalizing start r with
  | nil => exact ⟨hs, hr, trivial⟩
  | cons x xs ih =>
    obtain ⟨hx, hxx, hxs⟩ := h
    unfold insertRange
    split
    · exact ⟨hs, hr, by omega, hxx, hxs⟩
    · split
      · exact ⟨hx, hxx, ih hxs (by omega) hr⟩
      · exact ih (hxs.weaken (by omega)) (by simp only; omega) (by simp only; omega)

theorem separated_gapsFrom {start : Nat} {rs : List CodeRange} (h : Separated start rs) :
    Separated start (gapsFrom start rs) := by
  induction rs generalizing start with
  | nil =>
    unfold gapsFrom
    split
    · next hs => exact ⟨Nat.le_refl _, hs, trivial⟩
    · trivial
  | cons r rs ih =>
    obtain ⟨hs, hr, hrs⟩ := h
    have rest : Separated (r.2 + 1) (gapsFrom (r.2 + 1) rs) := ih (hrs.weaken (by omega))
    unfold gapsFrom
    split
    · exact ⟨Nat.le_refl _, by simp only; omega, rest.weaken (by simp only; omega)⟩
    · exact rest.weaken (by omega)

/-! ### Sets -/

/-- A set of characters: its ranges. -/
structure CharSet where
  ranges : List CodeRange
  separated : Separated 0 ranges
deriving DecidableEq

namespace CharSet

/-- Whether a character belongs to a set. -/
def contains (s : CharSet) (c : Char) : Bool := inRanges s.ranges c.toNat

/-- The set without members. -/
def empty : CharSet := ⟨[], trivial⟩

/-- Adds the members of a range. -/
def insert (s : CharSet) (r : CodeRange) : CharSet :=
  if h : r.1 ≤ r.2 then
    ⟨insertRange r s.ranges, separated_insertRange s.separated (Nat.zero_le _) h⟩
  else s

/-- The members of some ranges. -/
def ofRanges (rs : List CodeRange) : CharSet := rs.foldr (fun r s => s.insert r) empty

/-- The members of two sets. -/
def union (s t : CharSet) : CharSet := s.ranges.foldr (fun r u => u.insert r) t

/-- The code points between the two halves of the range of characters. -/
def surrogates : CodeRange := (0xd800, 0xdfff)

/-- All characters that a set lacks. -/
def compl (s : CharSet) : CharSet :=
  let t := s.insert surrogates
  ⟨gapsFrom 0 t.ranges, separated_gapsFrom t.separated⟩

/-- The common members of two sets. -/
def inter (s t : CharSet) : CharSet := compl (union (compl s) (compl t))

/-- The members of `s` that `t` lacks. -/
def diff (s t : CharSet) : CharSet := inter s (compl t)

/-- The characters in just one of two sets. -/
def symmDiff (s t : CharSet) : CharSet := union (diff s t) (diff t s)

/-- The set of one character. -/
def single (c : Char) : CharSet := empty.insert (c.toNat, c.toNat)

/-- The set of the characters from `first` to `last`. -/
def range (first last : Char) : CharSet :=
  if first.toNat < surrogates.1 ∧ surrogates.2 < last.toNat then
    ofRanges [(first.toNat, surrogates.1 - 1), (surrogates.2 + 1, last.toNat)]
  else empty.insert (first.toNat, last.toNat)

/-- The set of the characters in a list. -/
def ofChars (cs : List Char) : CharSet := ofRanges (cs.map fun c => (c.toNat, c.toNat))

/-- The decimal digits. -/
def decimalDigit : CharSet := ofRanges Unicode.decimalDigitRanges

/-- The white space. -/
def whiteSpace : CharSet := ofRanges Unicode.whiteSpaceRanges

/-- The word characters. -/
def wordCharacter : CharSet := ofRanges Unicode.wordRanges

/-- The decimal digits of ASCII. -/
def asciiDigit : CharSet := range '0' '9'

/-- The letters of ASCII. -/
def asciiLetter : CharSet := union (range 'a' 'z') (range 'A' 'Z')

/-- The white space of ASCII. -/
def asciiSpace : CharSet := union (range '\t' '\r') (single ' ')

/-- The word characters of ASCII. -/
def asciiWord : CharSet := union (union asciiDigit asciiLetter) (single '_')

/-- The only member of a set, if it has just one. -/
def single? (s : CharSet) : Option Char :=
  match s.ranges with
  | [(first, last)] => if first = last then some (Char.ofNat first) else none
  | _ => none

/-- A set with the second parts of all pairs whose first part it has. -/
def addImages (pairs : List (Nat × Nat)) (s : CharSet) : CharSet :=
  pairs.foldl (fun t p => if inRanges s.ranges p.1 then t.insert (p.2, p.2) else t) s

/-- All case variants of the members of a set: what the members fold to, and what folds to
one of them or to the same. -/
def anyCase (s : CharSet) : CharSet :=
  (s.addImages Unicode.foldPairs).addImages (Unicode.foldPairs.map Prod.swap)

/-- The case variants of the members of a set that are letters of ASCII. -/
def anyAsciiCase (s : CharSet) : CharSet :=
  let pairs := (List.range 26).map fun i => ('A'.toNat + i, 'a'.toNat + i)
  (s.addImages pairs).addImages (pairs.map Prod.swap)

end CharSet

end HostRules.Regex
