/-
HostRules/Regex/Delimited.lean

How a rule file writes a regular expression.  A bare slash separates the parts of a path and
stands for itself, so it gets a backslash; a text of the form `/body/flags` writes its body
with the flags set in front.
-/

namespace HostRules.Regex

/-- Puts a backslash before each slash that has none; `escaped` tells whether the first
character stands behind a backslash that escapes it. -/
def escapeSlashesFrom : (escaped : Bool) → List Char → List Char
  | _, [] => []
  | escaped, c :: cs =>
    let rest := escapeSlashesFrom (c == '\\' && !escaped) cs
    if c = '/' ∧ escaped = false then '\\' :: c :: rest else c :: rest

/-- Puts a backslash before each slash that has none. -/
def escapeSlashes (text : List Char) : List Char := escapeSlashesFrom false text

/-- The characters before and behind the last slash of a text. -/
def splitAtLastSlash? (text : List Char) : Option (List Char × List Char) :=
  match text.reverse.dropWhile (· != '/') with
  | [] => none
  | _ :: before => some (before.reverse, (text.reverse.takeWhile (· != '/')).reverse)

/-- Whether a character is a flag that may stand behind the closing slash. -/
def isLiteralFlag (c : Char) : Bool := c == 'i' || c == 'm' || c == 's' || c == 'x'

/-- The body and the flags of a text of the form `/body/flags`, neither of them empty. -/
def delimited? : List Char → Option (List Char × List Char)
  | '/' :: rest =>
    match splitAtLastSlash? rest with
    | some (body, flags) =>
      if !body.isEmpty && !flags.isEmpty && flags.all isLiteralFlag then some (body, flags)
      else none
    | none => none
  | _ => none

/-- The source of the regular expression that a rule file writes as `text`. -/
def sourceOf (text : List Char) : List Char :=
  match delimited? text with
  | some (body, flags) => '(' :: '?' :: (flags ++ ')' :: escapeSlashes body)
  | none => escapeSlashes text

end HostRules.Regex
