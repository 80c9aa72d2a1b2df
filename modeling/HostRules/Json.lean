/-
HostRules/Json.lean

JSON values and their text.  One writer serves both layouts: the compact one has no blanks,
the indented one puts every item on a line of its own, two spaces further in than the
brackets around it.  A list or an object without items is a pair of brackets in both.
-/
import HostRules.Diagnostic

namespace HostRules

/-- The JSON values that a configuration needs. -/
inductive Json where
  | text (s : String)
  | flag (b : Bool)
  | list (items : List Json)
  | object (fields : List (String × Json))

namespace Json

/-- How a character is written in a JSON string. -/
def escapeChar (c : Char) : List Char :=
  match c with
  | '"' => ['\\', '"']
  | '\\' => ['\\', '\\']
  | '\x08' => ['\\', 'b']
  | '\x0c' => ['\\', 'f']
  | '\n' => ['\\', 'n']
  | '\r' => ['\\', 'r']
  | '\t' => ['\\', 't']
  | c =>
    if c.toNat < 32 then
      ['\\', 'u', '0', '0', Nat.digitChar (c.toNat / 16), Nat.digitChar (c.toNat % 16)]
    else [c]

/-- The text of a string. -/
def writeText (s : String) : List Char := '"' :: (s.toList.flatMap escapeChar ++ ['"'])

/-- How the parts of a list or an object are set apart. -/
structure Layout where
  /-- What stands before an item that is so many levels deep. -/
  lineStart : (depth : Nat) → List Char
  /-- What stands between a name and its value. -/
  colon : List Char

/-- Everything on one line, without blanks. -/
def compact : Layout := ⟨fun _ => [], [':']⟩

/-- Every item on a line of its own. -/
def indented : Layout := ⟨fun depth => '\n' :: spaces (2 * depth), [':', ' ']⟩

mutual

/-- The text of a value that stands `depth` levels deep. -/
def write (l : Layout) (depth : Nat) : Json → List Char
  | text s => writeText s
  | flag true => ['t', 'r', 'u', 'e']
  | flag false => ['f', 'a', 'l', 's', 'e']
  | list [] => ['[', ']']
  | list (item :: more) =>
    '[' :: (l.lineStart (depth + 1) ++ item.write l (depth + 1) ++
      writeItems l (depth + 1) more ++ l.lineStart depth ++ [']'])
  | object [] => ['\x7b', '\x7d']
  | object ((name, v) :: more) =>
    '\x7b' :: (l.lineStart (depth + 1) ++ writeText name ++ l.colon ++ v.write l (depth + 1) ++
      writeFields l (depth + 1) more ++ l.lineStart depth ++ ['\x7d'])

/-- The text of the items behind the first one. -/
def writeItems (l : Layout) (depth : Nat) : List Json → List Char
  | [] => []
  | item :: more => ',' :: (l.lineStart depth ++ item.write l depth ++ writeItems l depth more)

/-- The text of the fields behind the first one. -/
def writeFields (l : Layout) (depth : Nat) : List (String × Json) → List Char
  | [] => []
  | (name, v) :: more =>
    ',' :: (l.lineStart depth ++ writeText name ++ l.colon ++ v.write l depth ++
      writeFields l depth more)

end

/-- The text of a value in a layout. -/
def render (l : Layout) (v : Json) : String := String.ofList (v.write l 0)

end Json

end HostRules
