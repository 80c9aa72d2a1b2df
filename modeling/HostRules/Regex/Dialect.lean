/-
HostRules/Regex/Dialect.lean

Dialects of regular expressions.  Rule files leave it to a dialect which texts are regular
expressions, what they look for, and what is told of a text that is none.
-/

namespace HostRules

/-- A dialect of regular expressions: the pattern that a text writes in it, or the reason why it
writes none. -/
class Regex.Dialect where
  Pattern : Type
  read : List Char → Except String Pattern

end HostRules
