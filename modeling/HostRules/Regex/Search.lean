/-
HostRules/Regex/Search.lean

Looking for a pattern anywhere in a text.  The search goes over the text once and keeps marks
in the pattern: a set of characters is marked when the character just read was one that the
pattern can find there.  From the marks follows where the pattern can end, and so whether it
has been found.  Parts without marks are passed over as long as nothing leads into them.
-/
import HostRules.Regex.Pattern

namespace HostRules.Regex

/-- What can be told of a pattern at a spot of a text. -/
structure Status where
  /-- The pattern can find the empty text here. -/
  passes : Bool
  /-- Something that the pattern finds ends here, and its last character has been read. -/
  ends : Bool
  /-- There is no mark in the pattern, and no assertion. -/
  quiet : Bool

/-- A pattern with marks, at a spot of a text. -/
inductive Marked where
  /-- The empty text. -/
  | nothing
  /-- One character of a set; `mark` tells whether it has just been read. -/
  | one (s : CharSet) (mark : Bool)
  /-- An assertion, and whether it holds here. -/
  | look (a : Assertion) (holds : Bool)
  /-- One pattern behind another, with the status of both together. -/
  | seq (status : Status) (p q : Marked)
  /-- One of two patterns, with the status of both together. -/
  | alt (status : Status) (p q : Marked)
  /-- A pattern once or more. -/
  | more (status : Status) (p : Marked)

namespace Marked

/-- What can be told of a marked pattern. -/
def status : Marked → Status
  | nothing => ⟨true, false, true⟩
  | one _ mark => ⟨false, mark, !mark⟩
  | look _ holds => ⟨holds, false, false⟩
  | seq s _ _ | alt s _ _ | more s _ => s

/-- One pattern behind another. -/
def andThen (p q : Marked) : Marked :=
  let (s, t) := (p.status, q.status)
  seq ⟨s.passes && t.passes, t.ends || (s.ends && t.passes), s.quiet && t.quiet⟩ p q

/-- One of two patterns. -/
def either (p q : Marked) : Marked :=
  let (s, t) := (p.status, q.status)
  alt ⟨s.passes || t.passes, s.ends || t.ends, s.quiet && t.quiet⟩ p q

/-- A pattern once or more. -/
def onceOrMore (p : Marked) : Marked := more p.status p

/-- A pattern `n` times.  The halves make a flat tree of a large number. -/
def copies (p : Marked) (n : Nat) : Marked :=
  if n = 0 then nothing
  else if n = 1 then p
  else (copies p (n / 2)).andThen (copies p (n - n / 2))

/-- The marks after the character `c`, which leads to the spot `spot`; `enter` tells whether
the pattern can begin before `c`. -/
def read (c : Char) (spot : Spot) : (enter : Bool) → Marked → Marked
  | _, nothing => nothing
  | enter, one s _ => one s (enter && s.contains c)
  | _, look a _ => look a (a.holds spot)
  | enter, seq s p q =>
    if s.quiet && !enter then seq s p q
    else
      (read c spot enter p).andThen
        (read c spot (p.status.ends || (enter && p.status.passes)) q)
  | enter, alt s p q =>
    if s.quiet && !enter then alt s p q
    else (read c spot enter p).either (read c spot enter q)
  | enter, more s p =>
    if s.quiet && !enter then more s p
    else (read c spot (enter || p.status.ends) p).onceOrMore

/-- Whether the pattern, which can begin anywhere, is found here or in what follows. -/
def isFound (m : Marked) : List Char → Bool
  | [] => m.status.passes || m.status.ends
  | c :: cs =>
    m.status.passes || m.status.ends || (m.read c ⟨some c, cs.head?⟩ true).isFound cs

end Marked

/-- A pattern without marks, at a spot. -/
def Pattern.unmarked (spot : Spot) : Pattern → Marked
  | text cs => cs.foldr (fun c m => (Marked.one (.single c) false).andThen m) .nothing
  | one s => .one s false
  | look a => .look a (a.holds spot)
  | group _ p => p.unmarked spot
  | seq p q => (p.unmarked spot).andThen (q.unmarked spot)
  | alt p q => (p.unmarked spot).either (q.unmarked spot)
  | repeated p min max _ =>
    let once := p.unmarked spot
    match min, max with
    | 0, none => Marked.nothing.either once.onceOrMore
    | min + 1, none => (once.copies min).andThen once.onceOrMore
    | min, some max => (once.copies min).andThen ((once.either .nothing).copies (max - min))

/-- Whether a pattern occurs in a text. -/
def Pattern.occursIn (p : Pattern) (text : List Char) : Bool :=
  (p.unmarked ⟨none, text.head?⟩).isFound text

end HostRules.Regex
