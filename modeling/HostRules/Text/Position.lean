/-
HostRules/Text/Position.lean

Places in a text.  A position counts lines and columns from one, columns in characters,
and carries the byte offset in the UTF-8 form of the text.  `Position.advance` walks over
a piece of text; `advance_append` says that walking over two pieces in turn is walking
over them together.
-/

namespace HostRules

/-- A place in a text. -/
structure Position where
  line : Nat
  column : Nat
  index : Nat
deriving DecidableEq

/-- The place of the first character. -/
def Position.start : Position := ⟨1, 1, 0⟩

/-- Whether the line ends with the character `c` when `next` follows it.  A CR before an LF
leaves the break to the LF. -/
def breaksLine (c : Char) (next : Option Char) : Bool :=
  c == '\n' || (c == '\r' && next != some '\n')

namespace Position

/-- The place after the character `c` at `p`, when `next` follows it. -/
def step (p : Position) (c : Char) (next : Option Char) : Position :=
  if breaksLine c next then ⟨p.line + 1, 1, p.index + c.utf8Size⟩
  else ⟨p.line, p.column + 1, p.index + c.utf8Size⟩

/-- The place after the characters `taken` from `p` on, when `rest` follows them. -/
def advance (p : Position) : (taken rest : List Char) → Position
  | [], _ => p
  | c :: cs, rest => (p.step c (cs.head?.or rest.head?)).advance cs rest

@[simp] theorem advance_nil (p : Position) (rest : List Char) : p.advance [] rest = p := rfl

theorem advance_append (p : Position) (a b rest : List Char) :
    p.advance (a ++ b) rest = (p.advance a (b ++ rest)).advance b rest := by
  induction a generalizing p with
  | nil => rfl
  | cons c cs ih =>
    have hn : (cs ++ b).head?.or rest.head? = cs.head?.or (b ++ rest).head? := by
      rw [List.head?_append, List.head?_append, Option.or_assoc]
    rw [List.cons_append, advance, advance, hn, ih]

theorem index_step (p : Position) (c : Char) (next : Option Char) :
    (p.step c next).index = p.index + c.utf8Size := by
  unfold step
  split <;> rfl

end Position

end HostRules
