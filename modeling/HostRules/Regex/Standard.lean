/-
HostRules/Regex/Standard.lean

The dialect that the program uses: its texts are read by `readPattern`, and a text is told to be
no regular expression in the words for its flaw.  Property classes such as `\p{L}` are no part of
the dialect, and a text with one is refused.
-/
import HostRules.Regex
import HostRules.Regex.Reader
import HostRules.Regex.Search

namespace HostRules.Regex

/-- The dialect of `readPattern`. -/
instance : Dialect where
  Pattern := Pattern
  read text := (readPattern text).mapError Flaw.message

/-- Whether the expression is found anywhere in a text. -/
def isFoundIn (r : Regex) (text : String) : Bool := Pattern.occursIn r.pattern text.toList

end HostRules.Regex
