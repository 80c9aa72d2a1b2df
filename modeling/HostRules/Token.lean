/-
HostRules/Token.lean

The tokens of a rule file.  A token has a kind, a value and the stretch of text it was
read from; its value is that text, or the content of a quoted string.
-/
import HostRules.Text.Position

namespace HostRules

/-- The reserved words. -/
inductive Keyword where
  | set
  | domain
  | location
deriving DecidableEq

/-- The spelling of a reserved word. -/
def Keyword.text : Keyword → String
  | set => "set"
  | domain => "domain"
  | location => "location"

/-- The reserved word with a spelling. -/
def Keyword.ofWord? (word : String) : Option Keyword :=
  [set, domain, location].find? (·.text == word)

/-- The kinds of token. -/
inductive TokenKind where
  /-- An unquoted word. -/
  | word
  /-- A reserved word, unquoted. -/
  | keyword (k : Keyword)
  /-- A quoted string. -/
  | quoted
  /-- `#` and the rest of its line. -/
  | comment
  /-- `;` -/
  | statementEnd
  /-- An opening brace. -/
  | blockStart
  /-- A closing brace. -/
  | blockEnd
  /-- A single CR or LF. -/
  | lineBreak
  /-- `=>` -/
  | arrow
deriving DecidableEq

namespace TokenKind

/-- The name of a kind of token; the reserved words share one. -/
def name : TokenKind → String
  | word => "word"
  | keyword _ => "keyword"
  | quoted => "string"
  | comment => "comment"
  | statementEnd => "express_end"
  | blockStart => "block_start"
  | blockEnd => "block_end"
  | lineBreak => "line_terminal"
  | arrow => "arrow"

/-- Whether a token of this kind ends the statement before it. -/
def endsStatement : TokenKind → Bool
  | statementEnd | blockStart | blockEnd | lineBreak => true
  | word | keyword _ | quoted | comment | arrow => false

end TokenKind

/-- A stretch of text, from its first character to behind its last. -/
structure Span where
  start : Position
  stop : Position
deriving DecidableEq

/-- A token: its kind, its value and where it stands. -/
structure Token where
  kind : TokenKind
  value : String
  span : Span
deriving DecidableEq

end HostRules
