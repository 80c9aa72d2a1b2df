/-
HostRules/Statement/Header.lean

What stands in front of an opening brace.  A header is `location` with a path or with `~`
and a regular expression, `domain` with host names, or host names with `=>`; it says what
kind of block opens, and that kind must fit the block around.
-/
import HostRules.Fault
import HostRules.Regex.Delimited
import HostRules.Statement
import HostRules.Unicode.WhiteSpace

namespace HostRules

variable [Regex.Dialect]

/-- The head of a block. -/
inductive Header where
  | domain (names : List String)
  | location (pattern : LocationPattern)
deriving DecidableEq

namespace Header

/-- The kind of block that a header opens. -/
def kind : Header → BlockKind
  | domain _ => .domain
  | location _ => .location

/-- The statement of a header with a body. -/
def withBody (body : List Statement) : Header → Statement
  | domain names => .domain names body
  | location pattern => .location pattern body

/-! ### Host names -/

/-- Whether a character separates host names. -/
def separatesNames (c : Char) : Bool := c == ',' || Unicode.isWhiteSpace c

/-- The pieces of a text between the characters that satisfy `p`, empty ones included. -/
def splitAtChars (p : Char → Bool) (text : List Char) : List (List Char) :=
  text.foldr (fun c pieces =>
    if p c then [] :: pieces
    else
      match pieces with
      | [] => [[c]]
      | piece :: more => (c :: piece) :: more) [[]]

/-- The host names in a text. -/
def namesIn (text : String) : List String :=
  ((splitAtChars separatesNames text.toList).filter (!·.isEmpty)).map String.ofList

/-- The host names in the values of some tokens. -/
def namesOf (tokens : List Token) : List String := tokens.flatMap (namesIn ·.value)

/-! ### Reading headers -/

/-- A fault at a place. -/
def refuse {α : Type} (cause : Cause) (place : Position) : Except Fault α :=
  .error ⟨cause, place⟩

/-- Lets a block open only one level inside the block around it. -/
def checkNesting (child parent : BlockKind) (place : Position) : Except Fault PUnit :=
  if child.depth = parent.depth + 1 then .ok ⟨⟩ else refuse (.misnested child parent) place

/-- The regular expression that a token writes. -/
def readRegex (t : Token) : Except Fault LocationPattern :=
  match Regex.ofSource (String.ofList (Regex.sourceOf t.value.toList)) with
  | .ok r => .ok (.regex r)
  | .error reason => refuse (.invalidRegex t.value reason) t.span.start

/-- The pattern of a location header: the token behind `location` is a path, or `~` with a
regular expression behind it.  Tokens behind the pattern are passed over. -/
def readPattern (marker : Token) (more : List Token) : Except Fault LocationPattern :=
  if marker.value = "~" then
    match more with
    | [] => refuse .missingRegex marker.span.stop
    | t :: _ => readRegex t
  else .ok (.path marker.value)

/-- The tokens that hold the host names of a domain header: all behind `domain`, or all
before an arrow at the end.  The two ways exclude each other. -/
def nameTokens? (first : Token) (more : List Token) : Option (List Token) :=
  match (first :: more).findIdx? (·.kind == .arrow) with
  | none => some more
  | some i =>
    if i = more.length ∧ first.kind ≠ .keyword .domain then some ((first :: more).take i)
    else none

/-- The header that the tokens before a brace at `brace` write, inside a block of kind
`parent`. -/
def read (tokens : List Token) (brace : Position) (parent : BlockKind) : Except Fault Header :=
  let unexpected : Cause := .unexpectedBlock parent.child?
  match tokens with
  | [] => refuse unexpected brace
  | [only] => refuse unexpected only.span.start
  | first :: second :: more =>
    let place := first.span.start
    if first.kind = .keyword .location then do
      checkNesting .location parent place
      return .location (← readPattern second more)
    else
      match nameTokens? first (second :: more) with
      | none => refuse unexpected place
      | some tokens => do
        checkNesting .domain parent place
        let names := namesOf tokens
        if names.isEmpty then refuse unexpected place else return .domain names

end Header

end HostRules
