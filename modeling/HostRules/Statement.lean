/-
HostRules/Statement.lean

The statements of a rule file.  A body is a list of statements, and blocks are statements
with a body.  The types allow any statement in any body; which bodies a file can have is a
matter of reading it, and what happens to a misplaced block is a matter of resolving it.
-/
import HostRules.Block
import HostRules.Regex
import HostRules.Token
import HostRules.Value

namespace HostRules

variable [Regex.Dialect]

/-- What a location block applies to. -/
inductive LocationPattern where
  /-- The paths that begin with a text. -/
  | path (text : String)
  /-- The paths in which a regular expression is found. -/
  | regex (r : Regex)
deriving DecidableEq

/-- The path, or the source of the regular expression. -/
def LocationPattern.text : LocationPattern → String
  | path text => text
  | regex r => r.source

/-- Whether a location pattern is a regular expression. -/
def LocationPattern.isRegex : LocationPattern → Bool
  | path _ => false
  | regex _ => true

/-- One statement of a body. -/
inductive Statement where
  /-- A block for hosts. -/
  | domain (names : List String) (body : List Statement)
  /-- A block for a part of a host. -/
  | location (pattern : LocationPattern) (body : List Statement)
  /-- A directive with its arguments. -/
  | call (directive : String) (arguments : List Token)
  /-- A variable and its value. -/
  | declare (name : String) (value : Value Token)
  /-- The short form `source => target`. -/
  | rule (source target : Token)

/-- A rule file: the body of the global block. -/
structure RuleFile where
  body : List Statement

namespace Statement

/-- The kind of a block statement. -/
def blockKind? : Statement → Option BlockKind
  | domain _ _ => some .domain
  | location _ _ => some .location
  | call _ _ | declare _ _ | rule _ _ => none

/-- The host names and the body of a domain block. -/
def domain? : Statement → Option (List String × List Statement)
  | domain names body => some (names, body)
  | _ => none

/-- The pattern and the body of a location block. -/
def location? : Statement → Option (LocationPattern × List Statement)
  | location pattern body => some (pattern, body)
  | _ => none

/-- The two sides of a rule. -/
def rule? : Statement → Option (Token × Token)
  | rule source target => some (source, target)
  | _ => none

end Statement

end HostRules
