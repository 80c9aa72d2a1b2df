/-
HostRules/Regex/Space.lean

The space that a pattern takes as a machine.  There are two machines for a pattern: one reads
a text forwards and notes where groups begin and end, the other reads it backwards.  Both
read bytes.  A pattern is refused when one of its machines is larger than `maxSpace`, which
keeps counts from making a short pattern a huge one.
-/
import HostRules.Regex.Pattern
import HostRules.Regex.Utf8

namespace HostRules.Regex

/-- The way in which a machine reads a text. -/
inductive Direction where
  | forwards
  | backwards
deriving DecidableEq

/-! ### States -/

/-- The bytes that a state takes by itself. -/
def stateSpace : Nat := 32

/-- The bytes of a state from which some arms lead on without reading. -/
def choiceSpace (arms : Nat) : Nat := stateSpace + 4 * arms

/-- The bytes of a state that reads a byte of one of some ranges. -/
def readSpace (ranges : Nat) : Nat := stateSpace + 8 * ranges

/-- The bytes for reading one character of a set.  ASCII needs one state that reads.  Else a
forward machine shares what blocks end with, and a backward machine what they begin with. -/
def setSpace (d : Direction) (s : CharSet) : Nat :=
  if s.ranges.all (·.2 < 0x80) then stateSpace + readSpace s.ranges.length
  else
    match d with
    | .forwards =>
      let nodes := (innerNodes 4 s.blocks).eraseDups
      nodes.foldr (fun node space => readSpace (branches node).length + space) stateSpace
    | .backwards =>
      stateSpace + choiceSpace s.blocks.length + stateSpace * edgeCount [] s.blocks

/-! ### Alternative words -/

/-- The bytes of a text in UTF-8. -/
def utf8Bytes (cs : List Char) : List UInt8 := cs.flatMap String.utf8EncodeChar

/-- Drops the empty words at the head, except for one. -/
def dropRepeatedEnds : List (List UInt8) → List (List UInt8)
  | [] :: [] :: words => dropRepeatedEnds ([] :: words)
  | words => words

/-- Divides words into parts, with an empty word between each part and the next. -/
def splitAtEnds : List (List UInt8) → List (List (List UInt8))
  | [] => [[]]
  | [] :: words => [] :: splitAtEnds words
  | word :: words =>
    match splitAtEnds words with
    | [] => [[word]]
    | part :: parts => (word :: part) :: parts

/-- The bytes for the inner nodes of the tree of some words, down to a depth.  A word that
ends at a node divides those before it from those behind it, as the earlier word counts. -/
def treeSpace : (depth : Nat) → List (List UInt8) → Nat
  | 0, _ => 0
  | depth + 1, words =>
    if words.all List.isEmpty then 0
    else
      let parts := splitAtEnds (dropRepeatedEnds words)
      let full := parts.filter fun part => !part.isEmpty
      let readPart (part : List (List UInt8)) : Nat :=
        let bytes := (part.filterMap List.head?).eraseDups
        let below (byte : UInt8) : Nat :=
          treeSpace depth (part.filterMap fun word =>
            if word.head? = some byte then some word.tail else none)
        (if bytes.length = 1 then stateSpace else readSpace bytes.length) + (bytes.map below).sum
      choiceSpace (full.length + (parts.length - 1)) + (full.map readPart).sum

/-- The bytes for one of some words. -/
def wordsSpace (d : Direction) (words : List (List Char)) : Nat :=
  let words := words.map fun cs =>
    match d with
    | .forwards => utf8Bytes cs
    | .backwards => (utf8Bytes cs).reverse
  stateSpace + treeSpace ((words.map List.length).foldl max 0 + 1) words

/-! ### Patterns -/

namespace Pattern

/-- The words of a pattern that is one of some words. -/
def words? (p : Pattern) : Option (List (List Char)) :=
  p.branches.mapM fun
    | text (c :: cs) => some (c :: cs)
    | _ => none

/-- The bytes for a pattern as often as the counts say, where `once` are those for `p`. -/
def timesSpace (p : Pattern) (once : Nat) : (min : Nat) → (max : Option Nat) → Nat
  | 0, some 1 => choiceSpace 2 + once + stateSpace
  | 0, none =>
    if p.minLength?.any (0 < ·) then choiceSpace 2 + once
    else once + 2 * choiceSpace 2 + stateSpace
  | min, none => min * once + choiceSpace 2
  | min, some max =>
    let least := if min = 0 then stateSpace else min * once
    if min = max then least else least + stateSpace + (max - min) * (choiceSpace 2 + once)

/-- The bytes for a pattern, where `alternatives` are those for its alternatives. -/
def choose (d : Direction) (p : Pattern) (alternatives : Nat) : Nat :=
  match p with
  | alt _ _ =>
    match p.words? with
    | some words => wordsSpace d words
    | none => stateSpace + choiceSpace p.branches.length + alternatives
  | _ => alternatives

/-- The bytes for the alternatives of a pattern. -/
def branchSpace (d : Direction) : Pattern → Nat
  | text [] => stateSpace
  | text (c :: cs) => stateSpace * ((c :: cs).map Char.utf8Size).sum
  | one s => setSpace d s
  | look _ => stateSpace
  | group _ p =>
    let inside := p.choose d (p.branchSpace d)
    match d with
    | .forwards => 2 * stateSpace + inside
    | .backwards => inside
  | seq p q => p.choose d (p.branchSpace d) + q.choose d (q.branchSpace d)
  | alt p q => p.branchSpace d + q.branchSpace d
  | repeated p min max _ => p.timesSpace (p.choose d (p.branchSpace d)) min max

/-- The bytes for a pattern. -/
def space (d : Direction) (p : Pattern) : Nat := p.choose d (p.branchSpace d)

/-- Whether a pattern can be found only at the start of a text, as its first step tells. -/
def startsText : Pattern → Bool
  | look .textStart => true
  | group _ p => p.startsText
  | seq p q => p.startsText || (p.maxLength? = some 0 && q.startsText)
  | alt p q => p.startsText && q.startsText
  | repeated p min _ _ => 0 < min && p.startsText
  | _ => false

/-- Whether a pattern can be found only at the end of a text, as its last step tells. -/
def endsText : Pattern → Bool
  | look .textEnd => true
  | group _ p => p.endsText
  | seq p q => q.endsText || (q.maxLength? = some 0 && p.endsText)
  | alt p q => p.endsText && q.endsText
  | repeated p min _ _ => 0 < min && p.endsText
  | _ => false

/-- The bytes of the whole machine for a pattern.  Unless the pattern says where a search
starts, the machine skips any bytes at first.  A forward machine notes where the whole match
begins and ends. -/
def machineSpace (d : Direction) (p : Pattern) : Nat :=
  let skip := choiceSpace 2 + stateSpace + readSpace 1
  match d with
  | .forwards => (if p.startsText then stateSpace else skip) + p.space d + 3 * stateSpace
  | .backwards => (if p.endsText then stateSpace else skip) + p.space d + stateSpace

/-- The most bytes that a machine may take. -/
def maxSpace : Nat := 10 * 1024 * 1024

/-- Whether the machines for a pattern are not too large. -/
def fits (p : Pattern) : Bool :=
  p.machineSpace .forwards ≤ maxSpace && p.machineSpace .backwards ≤ maxSpace

end Pattern

end HostRules.Regex
