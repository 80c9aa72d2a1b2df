/-
HostRules/Text/Cursor.lean

A cursor stands at a place in a text and sees the characters that follow.  It starts
behind the byte order mark, if the text has one, so that the mark moves the byte offset
and no column.
-/
import HostRules.Text.Blank
import HostRules.Text.Position

namespace HostRules

/-- A place in a text with the characters from there on. -/
structure Cursor where
  position : Position
  rest : List Char
deriving DecidableEq

namespace Cursor

/-- The cursor at the first character of a text. -/
def ofText (text : String) : Cursor :=
  match text.toList with
  | [] => ⟨.start, []⟩
  | c :: cs =>
    if c = byteOrderMark then ⟨{ Position.start with index := c.utf8Size }, cs⟩
    else ⟨.start, c :: cs⟩

/-- Whether nothing follows. -/
def atEnd (c : Cursor) : Bool := c.rest.isEmpty

/-- The character `offset` places ahead. -/
def peek (c : Cursor) (offset : Nat) : Option Char := c.rest[offset]?

/-- The cursor behind the characters `taken`, which `rest` follows. -/
def moveOver (c : Cursor) (taken rest : List Char) : Cursor :=
  ⟨c.position.advance taken rest, rest⟩

/-- The next character and the cursor behind it. -/
def next? (c : Cursor) : Option (Char × Cursor) :=
  match c.rest with
  | [] => none
  | ch :: rest => some (ch, c.moveOver [ch] rest)

/-- The next `n` characters, or as many as there are, and the cursor behind them. -/
def take (c : Cursor) (n : Nat) : List Char × Cursor :=
  (c.rest.take n, c.moveOver (c.rest.take n) (c.rest.drop n))

end Cursor

end HostRules
