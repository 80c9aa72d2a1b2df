/-
HostRules/Unicode/WhiteSpace.lean

The White_Space property.  Host names in a header are divided at these characters, and
the regex reader skips them in extended mode.
-/
import HostRules.Unicode.Ranges

namespace HostRules.Unicode

/-- The ranges of White_Space. -/
def whiteSpaceRanges : List CodeRange := [
  (0x9, 0xd), (0x20, 0x20), (0x85, 0x85), (0xa0, 0xa0), (0x1680, 0x1680), (0x2000, 0x200a),
  (0x2028, 0x2029), (0x202f, 0x202f), (0x205f, 0x205f), (0x3000, 0x3000)]

/-- Whether a character is White_Space. -/
def isWhiteSpace (c : Char) : Bool := covered whiteSpaceRanges c

end HostRules.Unicode
