/-
HostRules/Text/Lines.lean

The lines of a text, as a diagnostic shows them.  An LF ends a line, also the last one; a
CR at the end of a line is not shown.
-/

namespace HostRules

/-- Puts a character before the lines that follow it. -/
def addToLines (c : Char) (lines : List (List Char)) : List (List Char) :=
  if c = '\n' then [] :: lines
  else
    match lines with
    | [] => [[c]]
    | line :: more => (c :: line) :: more

/-- The lines of a text.  After a last LF no empty line follows. -/
def linesOf (text : List Char) : List (List Char) := text.foldr addToLines []

/-- A line without the CRs at its end. -/
def trimReturns (line : List Char) : List Char :=
  (line.reverse.dropWhile (· == '\r')).reverse

/-- The number and the text of a line that a diagnostic shows. -/
structure ContextLine where
  number : Nat
  text : String
deriving DecidableEq

/-- The line `line` of a text with its two neighbours, as far as they exist. -/
def contextLines (text : String) (line : Nat) : List ContextLine :=
  ((linesOf text.toList).zipIdx 1).filterMap fun (content, number) =>
    if line ≤ number + 1 ∧ number ≤ line + 1 then
      some ⟨number, String.ofList (trimReturns content)⟩
    else none

@[simp] theorem linesOf_nil : linesOf [] = [] := rfl

@[simp] theorem linesOf_cons (c : Char) (cs : List Char) :
    linesOf (c :: cs) = addToLines c (linesOf cs) := rfl

end HostRules
