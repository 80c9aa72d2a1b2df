/-
HostRules/Regex/Pattern.lean

What a regular expression looks for.  Patterns are built with `ofSet`, `concat`,
`alternation` and `times`, which bring them into a plain form: texts are as long as they can
be, rows and alternatives are flat, alternatives of single characters are one set, what all
alternatives begin with stands in front of them, and nothing is repeated in vain.
-/
import HostRules.Regex.Assertion

namespace HostRules.Regex

/-- What a regular expression looks for. -/
inductive Pattern where
  /-- The characters of a text, one behind the other. -/
  | text (cs : List Char)
  /-- One character of a set. -/
  | one (s : CharSet)
  /-- The empty text, where an assertion holds. -/
  | look (a : Assertion)
  /-- A group that captures what it finds, with its number. -/
  | group (number : Nat) (p : Pattern)
  /-- One pattern behind another. -/
  | seq (p q : Pattern)
  /-- One of two patterns. -/
  | alt (p q : Pattern)
  /-- A pattern at least `min` times, and at most `max` times if there is a limit; the
  fewest times first if it is lazy. -/
  | repeated (p : Pattern) (min : Nat) (max : Option Nat) (lazy : Bool)
deriving DecidableEq

namespace Pattern

/-! ### Lengths -/

/-- The number of characters in the shortest text that a pattern can find.  There is none if
some set in the pattern has no members. -/
def minLength? : Pattern → Option Nat
  | text cs => some cs.length
  | one s => if s = .empty then none else some 1
  | look _ => some 0
  | group _ p => p.minLength?
  | seq p q => do return (← p.minLength?) + (← q.minLength?)
  | alt p q => do return min (← p.minLength?) (← q.minLength?)
  | repeated p min _ _ => p.minLength?.map (min * ·)

/-- The number of characters in the longest text that a pattern can find, if there is a
limit and no set in the pattern is without members. -/
def maxLength? : Pattern → Option Nat
  | text cs => some cs.length
  | one s => if s = .empty then none else some 1
  | look _ => some 0
  | group _ p => p.maxLength?
  | seq p q => do return (← p.maxLength?) + (← q.maxLength?)
  | alt p q => do return max (← p.maxLength?) (← q.maxLength?)
  | repeated p _ max _ => do return (← max) * (← p.maxLength?)

/-- The number of constructors in a pattern. -/
def size : Pattern → Nat
  | text _ | one _ | look _ => 1
  | group _ p => p.size + 1
  | seq p q | alt p q => p.size + q.size + 1
  | repeated p _ _ _ => p.size + 1

/-! ### Sets -/

/-- The pattern of one character of a set. -/
def ofSet (s : CharSet) : Pattern :=
  match s.single? with
  | some c => text [c]
  | none => one s

/-- The character of a pattern that is just one character. -/
def letter? : Pattern → Option Char
  | text [c] => some c
  | _ => none

/-- The set of a pattern that is one character of a set. -/
def set? : Pattern → Option CharSet
  | one s => some s
  | _ => none

/-! ### Rows -/

/-- The patterns that stand one behind the other in a pattern. -/
def items : Pattern → List Pattern
  | text [] => []
  | seq p q => p :: q.items
  | p => [p]

/-- Puts a pattern before some others; texts that meet become one. -/
def consItem : Pattern → List Pattern → List Pattern
  | text [], ps => ps
  | text cs, text ds :: ps => text (cs ++ ds) :: ps
  | p, ps => p :: ps

/-- The pattern with the given items. -/
def ofItems : List Pattern → Pattern
  | [] => text []
  | [p] => p
  | p :: ps => seq p (ofItems ps)

/-- Some patterns, one behind the other. -/
def concat (ps : List Pattern) : Pattern := ofItems ((ps.flatMap items).foldr consItem [])

/-- Whether a pattern is a row of two or more. -/
def isRow : Pattern → Bool
  | seq _ _ => true
  | _ => false

/-! ### Alternatives -/

/-- The alternatives of a pattern. -/
def branches : Pattern → List Pattern
  | alt p q => p :: q.branches
  | p => [p]

/-- The pattern with the given alternatives. -/
def ofBranches : List Pattern → Pattern
  | [] => one .empty
  | [p] => p
  | p :: ps => alt p (ofBranches ps)

/-- What all of some rows begin with. -/
def sharedStart : List (List Pattern) → List Pattern
  | [] => []
  | [row] => row
  | row :: rows => ((row.zip (sharedStart rows)).takeWhile fun (p, q) => p = q).map Prod.fst

/-- One of some patterns.  `fuel` bounds how often a shared start is put in front. -/
def alternationWithin : (fuel : Nat) → List Pattern → Pattern
  | 0, ps => ofBranches ps
  | fuel + 1, ps =>
    let ps := ps.flatMap branches
    match ps, ps.mapM letter?, ps.mapM set? with
    | [p], _, _ => p
    | _, some cs, _ => ofSet (.ofChars cs)
    | _, none, some sets => ofSet (sets.foldr .union .empty)
    | ps, none, none =>
      let start := sharedStart (ps.map items)
      if ps.all isRow && !start.isEmpty then
        let rest := ps.map fun p => concat (p.items.drop start.length)
        concat (start ++ [alternationWithin fuel rest])
      else ofBranches ps

/-- One of some patterns. -/
def alternation (ps : List Pattern) : Pattern := alternationWithin (ps.foldr (·.size + ·) 0) ps

/-! ### Repetition -/

/-- A pattern a number of times.  What can only find the empty text needs no second time. -/
def times (p : Pattern) (min : Nat) (max : Option Nat) (lazy : Bool) : Pattern :=
  let (min, max) := if p.maxLength? = some 0 then (Nat.min min 1, some ((max.getD 1).min 1))
    else (min, max)
  match min, max with
  | 0, some 0 => text []
  | 1, some 1 => p
  | min, max => repeated p min max lazy

end Pattern

end HostRules.Regex
