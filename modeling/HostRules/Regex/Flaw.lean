/-
HostRules/Regex/Flaw.lean

What can keep a text from being a regular expression, and the words for it.  The words are those
of the reader here; another dialect has its own.
-/

namespace HostRules.Regex

/-- The reasons why a text is no regular expression. -/
inductive Flaw where
  | nothingToRepeat
  | unclosedCount
  | badCount
  | reversedCount
  | unclosedGroup
  | unopenedGroup
  | lookAround
  | badGroupName
  | repeatedGroupName
  | unknownFlag (c : Char)
  | repeatedFlag
  | danglingNegation
  | bytewiseMatching
  | notAscii
  | unclosedClass
  | reversedRange
  | notInClass
  | trailingBackslash
  | backReference
  | propertyClass
  | unknownEscape (c : Char)
  | badCodePoint
  | badBoundary
  | tooDeep
  | tooLarge
deriving DecidableEq

/-- The words for a flaw. -/
def Flaw.message : Flaw → String
  | nothingToRepeat => "repetition operator missing expression"
  | unclosedCount => "unclosed counted repetition"
  | badCount => "repetition quantifier expects a valid decimal"
  | reversedCount => "invalid repetition count range"
  | unclosedGroup => "unclosed group"
  | unopenedGroup => "unopened group"
  | lookAround => "look-around is not supported"
  | badGroupName => "invalid capture group name"
  | repeatedGroupName => "duplicate capture group name"
  | unknownFlag c => "unrecognized flag " ++ String.singleton c
  | repeatedFlag => "duplicate flag"
  | danglingNegation => "dangling flag negation operator"
  | bytewiseMatching => "can match a part of a character"
  | notAscii => "not allowed without Unicode"
  | unclosedClass => "unclosed character class"
  | reversedRange => "invalid character class range"
  | notInClass => "not allowed in a character class"
  | trailingBackslash => "incomplete escape sequence"
  | backReference => "backreferences are not supported"
  | propertyClass => "property classes are not supported"
  | unknownEscape c => "unrecognized escape sequence \\" ++ String.singleton c
  | badCodePoint => "invalid hexadecimal code point"
  | badBoundary => "unrecognized word boundary assertion"
  | tooDeep => "nested too deeply"
  | tooLarge => "exceeds the size limit"

end HostRules.Regex
