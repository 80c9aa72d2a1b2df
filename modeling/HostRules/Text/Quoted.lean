/-
HostRules/Text/Quoted.lean

Text between quote marks, for listings and log events.  The quote mark and the backslash get
a backslash, a few controls have names, and every other character that does not print on its
own is written by its number.
-/
import HostRules.Unicode.GraphemeExtend
import HostRules.Unicode.Unprintable

namespace HostRules

/-- A character by its number, in lower-case hexadecimal digits. -/
def numbered (c : Char) : List Char :=
  '\\' :: 'u' :: '\x7b' :: (Nat.toDigits 16 c.toNat ++ ['\x7d'])

/-- How a character is written between quote marks. -/
def quotedChar (c : Char) : List Char :=
  match c with
  | '\x00' => ['\\', '0']
  | '\t' => ['\\', 't']
  | '\r' => ['\\', 'r']
  | '\n' => ['\\', 'n']
  | '"' => ['\\', '"']
  | '\\' => ['\\', '\\']
  | c => if Unicode.isGraphemeExtend c || !Unicode.isPrintable c then numbered c else [c]

/-- A text between quote marks. -/
def quoted (text : String) : List Char := '"' :: (text.toList.flatMap quotedChar ++ ['"'])

/-- Some texts between quote marks, as a list in brackets. -/
def quotedList (texts : List String) : List Char :=
  '[' :: ([',', ' '].intercalate (texts.map quoted) ++ [']'])

end HostRules
