/-
HostRules/Diagnostic.lean

A diagnostic is a message about a place in a text, together with the lines around that
place.  It is shown in rows: the message, the place, and the lines with their numbers in a
gutter, a caret under the column of the failing line.
-/
import HostRules.Text.Cursor
import HostRules.Text.Lines

namespace HostRules

/-- A message about a place in a named or unnamed text. -/
structure Diagnostic where
  message : String
  sourceName : Option String
  line : Nat
  column : Nat
  context : List ContextLine
deriving DecidableEq

/-- The name shown for a text: its own, or a stand-in. -/
def shownName (sourceName : Option String) : String := sourceName.getD "<input>"

/-- The decimal digits of a number. -/
def decimal (n : Nat) : List Char := Nat.toDigits 10 n

/-- A run of spaces. -/
def spaces (n : Nat) : List Char := List.replicate n ' '

namespace Diagnostic

/-- The diagnostic for a place of `text`, with the lines around it. -/
def about (text message : String) (line column : Nat) : Diagnostic :=
  { message, sourceName := none, line, column, context := contextLines text line }

/-- The diagnostic for a line and a column of `text`; where none is given, the cursor's. -/
def atCursor (text message : String) (c : Cursor) (line column : Option Nat) : Diagnostic :=
  about text message (line.getD c.position.line) (column.getD c.position.column)

/-- The width of the widest line number, and at least one. -/
def gutter (d : Diagnostic) : Nat :=
  (d.context.map fun l => (decimal l.number).length).max?.getD 1

/-- The row of a context line, and the caret row under the failing one. -/
def contextRows (d : Diagnostic) (l : ContextLine) : List (List Char) :=
  let number := decimal l.number
  let row := spaces (d.gutter - number.length) ++ number ++ [' ', '|', ' '] ++ l.text.toList
  if l.number = d.line then
    [row, spaces d.gutter ++ [' ', '|', ' '] ++ spaces (d.column - 1) ++ ['^']]
  else [row]

/-- The row that names the place. -/
def placeRow (d : Diagnostic) : List Char :=
  spaces d.gutter ++ "--> ".toList ++ (shownName d.sourceName).toList ++
    ':' :: decimal d.line ++ ':' :: decimal d.column

/-- All rows of a diagnostic, from the message down. -/
def rows (d : Diagnostic) : List (List Char) :=
  ("error: ".toList ++ d.message.toList) :: d.placeRow :: (spaces d.gutter ++ [' ', '|']) ::
    d.context.flatMap d.contextRows

/-- The text of a diagnostic: its rows, each with a line break. -/
def render (d : Diagnostic) : String :=
  String.ofList (d.rows.flatMap (· ++ ['\n']))

end Diagnostic

end HostRules
