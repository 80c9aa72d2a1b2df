/-
HostRules/Regex/Class.lean

Bracketed sets of characters.  A set holds characters, ranges, named sets and further
bracketed sets; `&&`, `--` and `~~` combine what stands on their two sides, from left to
right.  The reader keeps a stack of the brackets that are open and goes over the text once.
Without regard to case, each member comes with its case variants.
-/
import HostRules.Regex.Escape

namespace HostRules.Regex

/-- A set without regard to case, if the flags say so. -/
def Flags.fold (flags : Flags) (s : CharSet) : CharSet :=
  if flags.ignoreCase then (if flags.unicode then s.anyCase else s.anyAsciiCase) else s

/-! ### Sets with names -/

/-- The sets of ASCII characters that have a name. -/
def asciiSet? (name : String) : Option CharSet :=
  let lower := CharSet.range 'a' 'z'
  let upper := CharSet.range 'A' 'Z'
  let alnum := CharSet.union .asciiDigit .asciiLetter
  match name with
  | "alnum" => some alnum
  | "alpha" => some .asciiLetter
  | "ascii" => some (.range '\x00' '\x7f')
  | "blank" => some (.ofChars ['\t', ' '])
  | "cntrl" => some (.union (.range '\x00' '\x1f') (.single '\x7f'))
  | "digit" => some .asciiDigit
  | "graph" => some (.range '!' '~')
  | "lower" => some lower
  | "print" => some (.range ' ' '~')
  | "punct" => some (.diff (.range '!' '~') alnum)
  | "space" => some .asciiSpace
  | "upper" => some upper
  | "word" => some .asciiWord
  | "xdigit" => some (.union .asciiDigit (.union (.range 'a' 'f') (.range 'A' 'F')))
  | _ => none

/-- A named set such as `[:alpha:]`, from behind its bracket; `^` before the name negates. -/
def readNamedSet? (flags : Flags) : List Char → Option (Except Flaw CharSet × List Char)
  | ':' :: cs =>
    let (negated, body) := match cs with
      | '^' :: more => (true, more)
      | _ => (false, cs)
    match body.dropWhile (· != ':') with
    | ':' :: ']' :: rest =>
      (asciiSet? (String.ofList (body.takeWhile (· != ':')))).map fun s =>
        (if negated then flags.compl (flags.fold s) else .ok (flags.fold s), rest)
    | _ => none
  | _ => none

/-! ### Open brackets -/

/-- The operators between the parts of a bracketed set. -/
inductive SetOp where
  | inter
  | diff
  | symmDiff
deriving DecidableEq

/-- The set that an operator makes of its two sides. -/
def SetOp.apply : SetOp → CharSet → CharSet → CharSet
  | inter => CharSet.inter
  | diff => CharSet.diff
  | symmDiff => CharSet.symmDiff

/-- A set as it is written: the set, and how deep brackets and operators are nested in it. -/
structure SetPart where
  set : CharSet
  depth : Nat
deriving DecidableEq

/-- Members that stand side by side: their union, how many they are, and how deep the deepest
of them is nested. -/
structure Members where
  set : CharSet := .empty
  count : Nat := 0
  deepest : Nat := 0
deriving DecidableEq

namespace Members

/-- Adds a member. -/
def add (m : Members) (p : SetPart) : Members :=
  ⟨m.set.union p.set, m.count + 1, max m.deepest p.depth⟩

/-- All members as one; two or more are a level of their own. -/
def part (m : Members) : SetPart := ⟨m.set, if m.count < 2 then m.deepest else m.deepest + 1⟩

end Members

/-- A bracketed set that is being read: whether it is negated, what stands before the last
operator, and what has been read since. -/
structure OpenSet where
  negated : Bool
  pending : Option (SetPart × SetOp) := none
  members : Members := {}
deriving DecidableEq

namespace OpenSet

/-- Adds a member. -/
def add (o : OpenSet) (s : CharSet) (depth : Nat := 0) : OpenSet :=
  { o with members := o.members.add ⟨s, depth⟩ }

/-- All that has been read, the last operator applied. -/
def content (o : OpenSet) : SetPart :=
  let right := o.members.part
  match o.pending with
  | none => right
  | some (left, op) => ⟨op.apply left.set right.set, max left.depth right.depth + 1⟩

/-- What a further operator leaves. -/
def operate (o : OpenSet) (op : SetOp) : OpenSet :=
  { o with pending := some (o.content, op), members := {} }

/-- The set when its bracket closes. -/
def close (o : OpenSet) (flags : Flags) : Except Flaw SetPart := do
  let content := o.content
  return ⟨← if o.negated then flags.compl content.set else .ok content.set, content.depth + 1⟩

end OpenSet

/-- Hyphens at the head of a set stand for themselves. -/
def readHyphens (flags : Flags) (o : OpenSet) : (skipped : Nat) → List Char → OpenSet × List Char
  | _, [] => (o, [])
  | k + 1, _ :: cs => readHyphens flags o k cs
  | 0, c :: cs =>
    if c = '-' then
      readHyphens flags (o.add (.single '-')) (cs.length - (flags.skip cs).length) cs
    else (o, c :: cs)

/-- Reads what may stand directly behind an opening bracket: a negation, hyphens, and if
there is no hyphen a closing bracket that stands for itself. -/
def openSet (flags : Flags) (cs : List Char) : OpenSet × List Char :=
  let (negated, cs) := match flags.skip cs with
    | '^' :: more => (true, flags.skip more)
    | cs => (false, cs)
  let (o, rest) := readHyphens flags { negated } 0 cs
  match o.members.count, rest with
  | 0, ']' :: rest => (o.add (.single ']'), flags.skip rest)
  | _, rest => (o, rest)

/-! ### Members -/

/-- One character or escape of a set. -/
def readMember (flags : Flags) (c : Char) (cs : List Char) :
    Except Flaw (Escape × List Char) :=
  if c = '\\' then readEscape flags cs else .ok (.literal c, cs)

/-- The set of the characters from `first` to `last`; without `u`, they are of ASCII. -/
def characterRange (flags : Flags) (first last : Char) : Except Flaw CharSet :=
  if last < first then .error .reversedRange
  else if !flags.unicode && 0x7f < last.toNat then .error .notAscii
  else .ok (flags.fold (.range first last))

/-- The range between two members that are characters. -/
def memberRange (flags : Flags) : Escape → Escape → Except Flaw CharSet
  | .literal first, .literal last => characterRange flags first last
  | _, _ => .error .notInClass

/-- The set of a member that is no end of a range. -/
def memberSet (flags : Flags) : Escape → Except Flaw CharSet
  | .literal c => characterRange flags c c
  | .set s => .ok s
  | .look _ => .error .notInClass

/-- Whether a hyphen makes a range of the members around it: neither the end of the set nor
another hyphen follows it.  The extended form looks past white space and one `#` for this,
but not past what the `#` comments. -/
def makesRange (flags : Flags) (behind : List Char) : Bool :=
  let next :=
    if flags.extended then
      match behind.dropWhile Unicode.isWhiteSpace with
      | '#' :: more => more.dropWhile Unicode.isWhiteSpace
      | more => more
    else behind
  next.head? != some ']' && next.head? != some '-'

/-- Reads a member or a range that begins with `c`. -/
def readRange (flags : Flags) (c : Char) (cs : List Char) :
    Except Flaw (CharSet × List Char) := do
  let (first, rest) ← readMember flags c cs
  let rest := flags.skip rest
  match rest with
  | '-' :: behind =>
    if makesRange flags behind then
      match flags.skip behind with
      | [] => .error .unclosedClass
      | d :: more =>
        let (last, rest) ← readMember flags d more
        return (← memberRange flags first last, rest)
    else return (← memberSet flags first, rest)
  | rest => return (← memberSet flags first, rest)

/-! ### The whole set -/

/-- What one step of reading leaves: the open sets, innermost first, or the whole set. -/
inductive SetProgress where
  | more (innermost : OpenSet) (outer : List OpenSet) (rest : List Char)
  | done (s : SetPart)

/-- Reads on from the character `c` inside the innermost of the open sets. -/
def stepSet (flags : Flags) (o : OpenSet) (outer : List OpenSet) (c : Char) (cs : List Char) :
    Except Flaw SetProgress := do
  match c, cs with
  | '[', cs =>
    match readNamedSet? flags cs with
    | some (s, rest) => return .more (o.add (← s)) outer rest
    | none =>
      let (inner, rest) := openSet flags cs
      return .more inner (o :: outer) rest
  | ']', cs =>
    let inner ← o.close flags
    match outer with
    | [] => return .done inner
    | parent :: outer => return .more (parent.add inner.set inner.depth) outer cs
  | '&', '&' :: rest => return .more (o.operate .inter) outer rest
  | '-', '-' :: rest => return .more (o.operate .diff) outer rest
  | '~', '~' :: rest => return .more (o.operate .symmDiff) outer rest
  | c, cs =>
    let (s, rest) ← readRange flags c cs
    return .more (o.add s) outer rest

/-- Reads to the end of the outermost set; the first `skipped` characters have been read. -/
def readSetFrom (flags : Flags) (o : OpenSet) (outer : List OpenSet) :
    (skipped : Nat) → List Char → Except Flaw (SetPart × List Char)
  | _, [] => .error .unclosedClass
  | k + 1, _ :: cs => readSetFrom flags o outer k cs
  | 0, c :: cs =>
    match stepSet flags o outer c cs with
    | .error e => .error e
    | .ok (.done s) => .ok (s, cs)
    | .ok (.more o outer rest) =>
      readSetFrom flags o outer (cs.length - (flags.skip rest).length) cs

/-- Reads a bracketed set from behind its opening bracket. -/
def readSet (flags : Flags) (cs : List Char) : Except Flaw (SetPart × List Char) :=
  let (o, rest) := openSet flags cs
  readSetFrom flags o [] 0 (flags.skip rest)

end HostRules.Regex
