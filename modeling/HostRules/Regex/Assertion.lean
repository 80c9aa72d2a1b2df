/-
HostRules/Regex/Assertion.lean

Conditions on a spot of a text: the place between two characters, or one of the two ends.
-/
import HostRules.Regex.CharSet

namespace HostRules.Regex

/-- A spot between two characters of a text, or at one of its ends. -/
structure Spot where
  before : Option Char
  behind : Option Char
deriving DecidableEq

/-- The conditions on a spot that a pattern can name. -/
inductive Assertion where
  | textStart
  | textEnd
  /-- The start of a line; with `crlf`, also CR ends a line, and CR LF is one line end. -/
  | lineStart (crlf : Bool)
  /-- The end of a line. -/
  | lineEnd (crlf : Bool)
  /-- A word begins or ends; `ascii` tells for these whether only ASCII has word characters. -/
  | wordBoundary (ascii : Bool)
  | notWordBoundary (ascii : Bool)
  | wordStart (ascii : Bool)
  | wordEnd (ascii : Bool)
  | noWordBefore (ascii : Bool)
  | noWordBehind (ascii : Bool)
deriving DecidableEq

/-- Whether a word character stands on one side of a spot. -/
def isWordSide (ascii : Bool) (side : Option Char) : Bool :=
  side.any (if ascii then CharSet.asciiWord else CharSet.wordCharacter).contains

/-- Whether an assertion holds at a spot. -/
def Assertion.holds (a : Assertion) (s : Spot) : Bool :=
  match a with
  | textStart => s.before.isNone
  | textEnd => s.behind.isNone
  | lineStart crlf =>
    s.before.isNone || s.before == some '\n' ||
      (crlf && s.before == some '\r' && s.behind != some '\n')
  | lineEnd false => s.behind.isNone || s.behind == some '\n'
  | lineEnd true =>
    s.behind.isNone || s.behind == some '\r' ||
      (s.behind == some '\n' && s.before != some '\r')
  | wordBoundary ascii => isWordSide ascii s.before != isWordSide ascii s.behind
  | notWordBoundary ascii => isWordSide ascii s.before == isWordSide ascii s.behind
  | wordStart ascii => !isWordSide ascii s.before && isWordSide ascii s.behind
  | wordEnd ascii => isWordSide ascii s.before && !isWordSide ascii s.behind
  | noWordBefore ascii => !isWordSide ascii s.before
  | noWordBehind ascii => !isWordSide ascii s.behind

end HostRules.Regex
