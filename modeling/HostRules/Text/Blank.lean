/-
HostRules/Text/Blank.lean

The characters that divide a rule file into tokens.  Spaces within a line are skipped
between tokens, line breaks are tokens themselves, and both of them, like `;` and the
braces, end an unquoted word.
-/
import HostRules.Unicode.Ranges

namespace HostRules

/-- The byte order mark, which may open a text and says nothing. -/
def byteOrderMark : Char := '\ufeff'

/-- The ranges of spaces that separate tokens on one line. -/
def gapRanges : List Unicode.CodeRange := [
  (0x9, 0x9), (0xb, 0xc), (0x20, 0x20), (0xa0, 0xa0), (0x1680, 0x1680), (0x2000, 0x200a),
  (0x202f, 0x202f), (0x205f, 0x205f), (0x3000, 0x3000), (0xfeff, 0xfeff)]

/-- Whether a character is a space between tokens. -/
def isGap (c : Char) : Bool := Unicode.covered gapRanges c

/-- Whether a character breaks the line. -/
def isLineBreak (c : Char) : Bool := c == '\r' || c == '\n'

/-- Whether a character cannot stand in an unquoted word. -/
def endsWord (c : Char) : Bool :=
  isGap c || isLineBreak c || c == ';' || c == '\x7b' || c == '\x7d'

theorem not_isGap_of_isLineBreak {c : Char} (h : isLineBreak c = true) : isGap c = false := by
  have h' : c = '\r' ∨ c = '\n' := by simpa [isLineBreak] using h
  rcases h' with rfl | rfl <;> decide

end HostRules
