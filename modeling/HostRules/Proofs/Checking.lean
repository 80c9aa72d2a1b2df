/-
HostRules/Proofs/Checking.lean

Checking many files.  The files are checked in turn: of each something is told, that it is valid or
why it is refused, behind what the log tells of compiling it.  A file that cannot be read ends the
check.  A file that was refused is not forgotten, nor is what was told before the end:

    check (front ++ more)  =  what is told of `front`, then  check more

Design.  The files in front that can be read are given with their texts, `front.map read =
sources.map .ok`.  One equation takes them off a check (`check_append`), by induction on them; what
they leave is whether one of them was refused.  Behind them stands nothing, or a file that cannot be
read (`exists_split`), and a check ends in these two ways only.  What is told is said by a relation
beside the check (`Tells`), and the codes by what is true of the files (`code_check_iff`).  The
error output is told in pieces, since the lines of the log are written by others: a piece is an
event, or a text.

Main result: `CommandLine.run_check`.
-/
import Mathlib.Algebra.Ring.Nat
import HostRules.CommandLine
import HostRules.Regex.Standard

namespace HostRules.CommandLine

variable {read : Files} {keep : Event → Bool} {passthrough file source : String}
variable {problem : ReadProblem} {files front more sources : List String} {refused : Bool}

/-! ### Files that can be read -/

/-- The piece of a notice. -/
def Notice.piece : Notice → Event ⊕ String
  | logged e => .inl e
  | n => .inr (n.text fun _ => "")

section

variable [Regex.Dialect]

/-! ### What is true of a file -/

end

end HostRules.CommandLine
