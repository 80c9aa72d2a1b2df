/-
HostRules/Fault.lean

What can be wrong with a rule file.  A fault is a cause at a place; the first one ends the
reading of the file.
-/
import HostRules.Block
import HostRules.Diagnostic
import HostRules.Text.Position

namespace HostRules

/-- The reasons to refuse a rule file. -/
inductive Cause where
  /-- A quoted string reaches the end of its line before its closing quote. -/
  | unterminatedString (quote : Char)
  /-- A block opens without the header that its level asks for. -/
  | unexpectedBlock (expected : Option BlockKind)
  /-- A block opens directly inside a block of the wrong level. -/
  | misnested (child parent : BlockKind)
  /-- A statement with `=>` that is not `source => target`. -/
  | malformedRule (found : Nat)
  /-- A location header with `~` and no pattern. -/
  | missingRegex
  /-- A location pattern that is no regular expression. -/
  | invalidRegex (pattern reason : String)
  /-- A `set` without a name or without a value. -/
  | incompleteVariable
  /-- A `}` where no block is open. -/
  | unmatchedBlockEnd
deriving DecidableEq

/-- The families of causes that come after the scanning of tokens. -/
inductive CauseClass where
  | malformed
  | nesting
deriving DecidableEq

namespace Cause

/-- The family of a cause; an unterminated string belongs to none. -/
def class? : Cause → Option CauseClass
  | unterminatedString _ => none
  | unexpectedBlock _ | misnested _ _ => some .nesting
  | malformedRule _ | missingRegex | invalidRegex _ _ | incompleteVariable
  | unmatchedBlockEnd => some .malformed

/-- The words for a cause. -/
def message : Cause → String
  | unterminatedString quote =>
    "unterminated string constant, expected closing " ++ String.singleton quote
  | unexpectedBlock (some kind) => "unexpected block declaration, expected " ++ kind.name
  | unexpectedBlock none =>
    "unexpected block declaration, " ++ BlockKind.location.name ++ " cannot contain blocks"
  | misnested child parent =>
    match child.parent? with
    | some required =>
      child.name ++ " should be wrapped in " ++ required.name ++ ", found " ++ parent.name
    | none => child.name ++ " cannot be nested"
  | malformedRule found =>
    "simple rule syntax error, expected `source => target`, got " ++
      String.ofList (decimal found) ++ " token(s)"
  | missingRegex => "missing regular expression after `~`"
  | invalidRegex pattern reason =>
    "invalid regular expression `" ++ pattern ++ "`: " ++ reason
  | incompleteVariable => "`set` needs a variable name and a value"
  | unmatchedBlockEnd => "unexpected '\x7d' outside of any block"

end Cause

/-- A cause and the place it was found at. -/
structure Fault where
  cause : Cause
  place : Position
deriving DecidableEq

/-- The words for a fault, with its place. -/
def Fault.message (f : Fault) : String :=
  f.cause.message ++ " at line " ++ String.ofList (decimal f.place.line) ++
    ", column " ++ String.ofList (decimal f.place.column)

/-- The diagnostic for a fault of the text `source`. -/
def Fault.diagnostic (f : Fault) (source : String) (sourceName : Option String) : Diagnostic :=
  { Diagnostic.about source f.cause.message f.place.line f.place.column with sourceName }

end HostRules
