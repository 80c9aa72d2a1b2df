/-
HostRules/Regex/Escape.lean

The small parts of a regular expression: the flags in force, the blanks that the extended
form allows, escapes, counts and the heads of groups.  Each reader gets the characters from
where its part begins and returns what it read with the characters left.
-/
import HostRules.Regex.Assertion
import HostRules.Regex.Flaw
import HostRules.Unicode.Alphanumeric

namespace HostRules.Regex

/-! ### Flags and blanks -/

/-- The flags that can be in force. -/
structure Flags where
  /-- `i`: case variants are equal. -/
  ignoreCase : Bool := false
  /-- `m`: the line assertions look at lines and not at the whole text. -/
  multiLine : Bool := false
  /-- `s`: the dot stands for line breaks too. -/
  dotAll : Bool := false
  /-- `x`: blanks and comments are skipped. -/
  extended : Bool := false
  /-- `R`: a CR ends a line too. -/
  crlf : Bool := false
  /-- `U`: repetitions are lazy, unless a question mark follows them. -/
  lazy : Bool := false
  /-- `u`: sets hold characters.  Without it they hold bytes, and only those of ASCII are
  characters. -/
  unicode : Bool := true
deriving DecidableEq

/-- Sets a flag. -/
def Flags.set (flags : Flags) (on : Bool) : Char → Except Flaw Flags
  | 'i' => .ok { flags with ignoreCase := on }
  | 'm' => .ok { flags with multiLine := on }
  | 's' => .ok { flags with dotAll := on }
  | 'x' => .ok { flags with extended := on }
  | 'R' => .ok { flags with crlf := on }
  | 'U' => .ok { flags with lazy := on }
  | 'u' => .ok { flags with unicode := on }
  | c => .error (.unknownFlag c)

/-- Skips white space and comments; `inComment` tells whether a comment is open. -/
def skipBlanks : (inComment : Bool) → List Char → List Char
  | _, [] => []
  | true, c :: cs => skipBlanks (c != '\n') cs
  | false, c :: cs =>
    if Unicode.isWhiteSpace c then skipBlanks false cs
    else if c = '#' then skipBlanks true cs
    else c :: cs

/-- Skips what the extended form lets stand between two parts. -/
def Flags.skip (flags : Flags) (cs : List Char) : List Char :=
  if flags.extended then skipBlanks false cs else cs

/-- The characters up to the first one that is no `isPart`, and those left.  The extended form
lets blanks stand behind each; the first `skipped` characters are such blanks. -/
def Flags.takeParts (flags : Flags) (isPart : Char → Bool) :
    (skipped : Nat) → List Char → List Char × List Char
  | _, [] => ([], [])
  | k + 1, _ :: cs => flags.takeParts isPart k cs
  | 0, c :: cs =>
    if isPart c then
      let (parts, rest) := flags.takeParts isPart (cs.length - (flags.skip cs).length) cs
      (c :: parts, rest)
    else ([], c :: cs)

/-! ### Escapes -/

/-- What a backslash and the characters behind it stand for. -/
inductive Escape where
  | literal (c : Char)
  | set (s : CharSet)
  | look (a : Assertion)

/-- All characters that a set lacks.  Without `u` bytes are among them that are no characters. -/
def Flags.compl (flags : Flags) (s : CharSet) : Except Flaw CharSet :=
  if flags.unicode then .ok s.compl else .error .bytewiseMatching

/-- The value of a hexadecimal digit. -/
def hexDigit? (c : Char) : Option Nat :=
  if c.isDigit then some (c.toNat - '0'.toNat)
  else if 'a' ≤ c ∧ c ≤ 'f' then some (c.toNat - 'a'.toNat + 10)
  else if 'A' ≤ c ∧ c ≤ 'F' then some (c.toNat - 'A'.toNat + 10)
  else none

/-- The number that hexadecimal digits write, if there is at least one. -/
def hexNumber? (cs : List Char) : Option Nat :=
  if cs.isEmpty then none
  else cs.foldlM (fun n c => (hexDigit? c).map (n * 16 + ·)) 0

/-- The character with a code point in hexadecimal. -/
def codePoint (digits : List Char) : Except Flaw Escape :=
  match hexNumber? digits with
  | some n => if n.isValidChar then .ok (.literal (Char.ofNat n)) else .error .badCodePoint
  | none => .error .badCodePoint

/-- A fixed number of digits, and the characters left. -/
def takeDigits (flags : Flags) : (n : Nat) → List Char → List Char × List Char
  | 0, cs => ([], cs)
  | n + 1, cs =>
    match flags.skip cs with
    | [] => ([], [])
    | c :: more =>
      let (digits, rest) := takeDigits flags n more
      (c :: digits, rest)

/-- Without `u`, two digits write a byte and not a character. -/
def Flags.checkWidth (flags : Flags) (width : Nat) : Escape → Except Flaw Escape
  | .literal c =>
    if !flags.unicode && width = 2 && 0x7f < c.toNat then .error .bytewiseMatching
    else .ok (.literal c)
  | e => .ok e

/-- A code point behind `x`, `u` or `U`: in braces, or with the number of digits that the
letter asks for. -/
def readCodePoint (flags : Flags) (width : Nat) (cs : List Char) :
    Except Flaw (Escape × List Char) :=
  match flags.skip cs with
  | '\x7b' :: more =>
    match flags.takeParts (hexDigit? · |>.isSome) 0 (flags.skip more) with
    | (digits, '\x7d' :: rest) => return (← codePoint digits, rest)
    | _ => .error .badCodePoint
  | cs => do
    let (digits, rest) := takeDigits flags width cs
    if digits.length = width then
      return (← flags.checkWidth width (← codePoint digits), rest)
    else .error .badCodePoint

/-- The assertion behind `\b`: a boundary, or the kind of boundary that braces name. -/
def readBoundary (flags : Flags) (cs : List Char) : Except Flaw (Escape × List Char) :=
  let inName (c : Char) : Bool := c.isAlpha || c == '-'
  let ascii := !flags.unicode
  match cs with
  | '\x7b' :: more =>
    match flags.takeParts inName 0 (flags.skip more) with
    | ([], []) => .error .badBoundary
    | ([], _) => .ok (.look (.wordBoundary ascii), cs)
    | (name, '\x7d' :: rest) =>
      match String.ofList name with
      | "start" => .ok (.look (.wordStart ascii), rest)
      | "end" => .ok (.look (.wordEnd ascii), rest)
      | "start-half" => .ok (.look (.noWordBefore ascii), rest)
      | "end-half" => .ok (.look (.noWordBehind ascii), rest)
      | _ => .error .badBoundary
    | _ => .error .badBoundary
  | cs => .ok (.look (.wordBoundary ascii), cs)

/-- Whether a backslash before a character only makes it stand for itself. -/
def isPlainEscape (c : Char) : Bool :=
  c.toNat < 128 && !c.isAlphanum && c != '<' && c != '>'

/-- The decimal digits. -/
def Flags.decimalDigit (flags : Flags) : CharSet :=
  if flags.unicode then .decimalDigit else .asciiDigit

/-- The white space. -/
def Flags.whiteSpace (flags : Flags) : CharSet :=
  if flags.unicode then .whiteSpace else .asciiSpace

/-- The word characters. -/
def Flags.wordCharacter (flags : Flags) : CharSet :=
  if flags.unicode then .wordCharacter else .asciiWord

/-- Reads an escape from behind its backslash. -/
def readEscape (flags : Flags) : List Char → Except Flaw (Escape × List Char)
  | [] => .error .trailingBackslash
  | c :: cs =>
    let ascii := !flags.unicode
    if isPlainEscape c then .ok (.literal c, cs)
    else if c.isDigit then .error .backReference
    else
      match c with
      | 'd' => .ok (.set flags.decimalDigit, cs)
      | 'D' => return (.set (← flags.compl flags.decimalDigit), cs)
      | 's' => .ok (.set flags.whiteSpace, cs)
      | 'S' => return (.set (← flags.compl flags.whiteSpace), cs)
      | 'w' => .ok (.set flags.wordCharacter, cs)
      | 'W' => return (.set (← flags.compl flags.wordCharacter), cs)
      | 'a' => .ok (.literal '\x07', cs)
      | 'f' => .ok (.literal '\x0c', cs)
      | 'n' => .ok (.literal '\n', cs)
      | 'r' => .ok (.literal '\r', cs)
      | 't' => .ok (.literal '\t', cs)
      | 'v' => .ok (.literal '\x0b', cs)
      | 'A' => .ok (.look .textStart, cs)
      | 'z' => .ok (.look .textEnd, cs)
      | 'b' => readBoundary flags cs
      | 'B' => .ok (.look (.notWordBoundary ascii), cs)
      | '<' => .ok (.look (.wordStart ascii), cs)
      | '>' => .ok (.look (.wordEnd ascii), cs)
      | 'x' => readCodePoint flags 2 cs
      | 'u' => readCodePoint flags 4 cs
      | 'U' => readCodePoint flags 8 cs
      | 'p' | 'P' => .error .propertyClass
      | c => .error (.unknownEscape c)

/-! ### Counts -/

/-- The largest count. -/
def maxCount : Nat := 4294967295

/-- A decimal number with white space around it, if there is one, and the characters left. -/
def readDecimal (flags : Flags) (cs : List Char) : Option Nat × List Char :=
  let (digits, rest) := flags.takeParts Char.isDigit 0 (cs.dropWhile Unicode.isWhiteSpace)
  let number := digits.foldl (fun n c => n * 10 + (c.toNat - '0'.toNat)) 0
  (if digits.isEmpty then none else some number, rest.dropWhile Unicode.isWhiteSpace)

/-- The end of a count: its closing brace. -/
def closeCount (flags : Flags) (min : Nat) (max : Option Nat) :
    List Char → Except Flaw (Nat × Option Nat × List Char)
  | '\x7d' :: rest =>
    if maxCount < min ∨ max.any (maxCount < ·) then .error .badCount
    else if max.any (· < min) then .error .reversedCount
    else .ok (min, max, flags.skip rest)
  | _ => .error .unclosedCount

/-- Reads the least and the greatest number of times from behind the opening brace. -/
def readCount (flags : Flags) (cs : List Char) :
    Except Flaw (Nat × Option Nat × List Char) :=
  match readDecimal flags (flags.skip cs) with
  | (none, _) => .error .badCount
  | (some min, ',' :: rest) =>
    match flags.skip rest with
    | '\x7d' :: more => closeCount flags min none ('\x7d' :: more)
    | rest =>
      match readDecimal flags rest with
      | (none, _) => .error .badCount
      | (some max, rest) => closeCount flags min (some max) rest
  | (some n, rest) => closeCount flags n (some n) rest

/-! ### Heads of groups -/

/-- What stands behind an opening parenthesis. -/
inductive GroupHead where
  /-- A group that captures, with its name if it has one. -/
  | capture (name : Option (List Char))
  /-- A group with flags of its own. -/
  | flagged (flags : Flags)
  /-- No group: flags for the rest of the group around. -/
  | setting (flags : Flags)

/-- Reads flags up to a `:` or a `)`, which is returned too; `seen` holds the characters
read, the last one first. -/
def readFlags (flags : Flags) (seen : List Char) :
    List Char → Except Flaw (GroupHead × List Char)
  | [] => .error .unclosedGroup
  | c :: cs =>
    if c = ':' ∨ c = ')' then
      if seen.head? = some '-' then .error .danglingNegation
      else if c = ':' then .ok (.flagged flags, cs)
      else if seen.isEmpty then .error .nothingToRepeat
      else .ok (.setting flags, cs)
    else if seen.contains c then .error .repeatedFlag
    else if c = '-' then readFlags flags (c :: seen) cs
    else
      match flags.set (!seen.contains '-') c with
      | .error e => .error e
      | .ok flags => readFlags flags (c :: seen) cs

/-- Whether a character may stand in the name of a group; a number, a point or a bracket not
at its head. -/
def isNameCharacter (atHead : Bool) (c : Char) : Bool :=
  c == '_' || Unicode.isAlphabetic c ||
    (!atHead && (c == '.' || c == '[' || c == ']' || Unicode.isNumeric c))

/-- Reads the name of a group up to its `>`. -/
def readGroupName (cs : List Char) : Except Flaw (GroupHead × List Char) :=
  match cs.takeWhile (· != '>'), cs.dropWhile (· != '>') with
  | c :: more, _ :: rest =>
    if isNameCharacter true c && more.all (isNameCharacter false) then
      .ok (.capture (some (c :: more)), rest)
    else .error .badGroupName
  | _, _ => .error .badGroupName

/-- Reads the head of a group from behind its parenthesis. -/
def readGroupHead (flags : Flags) (cs : List Char) : Except Flaw (GroupHead × List Char) :=
  match flags.skip cs with
  | '?' :: '=' :: _ | '?' :: '!' :: _ | '?' :: '<' :: '=' :: _ | '?' :: '<' :: '!' :: _ =>
    .error .lookAround
  | '?' :: 'P' :: '<' :: rest | '?' :: '<' :: rest => readGroupName rest
  | '?' :: rest => readFlags flags [] rest
  | rest => .ok (.capture none, rest)

end HostRules.Regex
