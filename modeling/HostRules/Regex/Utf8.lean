/-
HostRules/Regex/Utf8.lean

Sets of characters as sets of byte strings.  The UTF-8 forms of the characters of a set fall
into blocks: a block is a row of byte ranges, and stands for all strings that take one byte
from each range.  The blocks come in the order of their characters, so those that begin alike
stand together, and reading them byte by byte makes a tree.
-/
import HostRules.Regex.CharSet

namespace HostRules.Regex

/-- Byte ranges that stand one behind the other. -/
abbrev ByteBlock := List (Nat × Nat)

/-- The blocks for the numbers from `a` to `b`, written to the base 64 with a leading digit
and `tail` further ones.  The leading digit is set off by `mark`, the others by `0x80`. -/
def digitBlocks (mark : Nat) : (tail a b : Nat) → List ByteBlock
  | 0, a, b => [[(mark + a, mark + b)]]
  | tail + 1, a, b =>
    let unit := Nat.pow 64 (tail + 1)
    let below (digit : Nat) (blocks : List ByteBlock) : List ByteBlock :=
      blocks.map ((mark + digit, mark + digit) :: ·)
    if a / unit = b / unit then
      below (a / unit) (digitBlocks 0x80 tail (a % unit) (b % unit))
    else
      let first :=
        if a % unit = 0 then []
        else below (a / unit) (digitBlocks 0x80 tail (a % unit) (unit - 1))
      let last :=
        if (b + 1) % unit = 0 then []
        else below (b / unit) (digitBlocks 0x80 tail 0 (b % unit))
      let least := (a + unit - 1) / unit
      let above := (b + 1) / unit
      let whole :=
        if least < above then
          [(mark + least, mark + above - 1) :: List.replicate (tail + 1) (0x80, 0xbf)]
        else []
      first ++ whole ++ last

/-- The code points whose UTF-8 form has a certain length: how many bytes follow the first
one, what sets off the first one, and the first and last code point. -/
def utf8Forms : List (Nat × Nat × Nat × Nat) :=
  [(0, 0x00, 0x0, 0x7f), (1, 0xc0, 0x80, 0x7ff), (2, 0xe0, 0x800, 0xffff),
    (3, 0xf0, 0x10000, lastCode)]

/-- The blocks of a range of characters. -/
def blocksOfRange (r : Unicode.CodeRange) : List ByteBlock :=
  utf8Forms.flatMap fun (tail, mark, first, last) =>
    let a := max r.1 first
    let b := min r.2 last
    if a ≤ b then digitBlocks mark tail a b else []

/-- The blocks of a set of characters. -/
def CharSet.blocks (s : CharSet) : List ByteBlock := s.ranges.flatMap blocksOfRange

/-! ### The tree of some blocks -/

/-- The first byte ranges of some blocks, each with what follows it. -/
def branches : List ByteBlock → List ((Nat × Nat) × List ByteBlock)
  | [] => []
  | [] :: blocks => branches blocks
  | (r :: tail) :: blocks =>
    match branches blocks with
    | (r', tails) :: more =>
      if r = r' then (r, tail :: tails) :: more else (r, [tail]) :: (r', tails) :: more
    | [] => [(r, [tail])]

/-- The inner nodes of the tree of some blocks, down to a depth.  A node is given by the
blocks that are left to read there. -/
def innerNodes : (depth : Nat) → List ByteBlock → List (List ByteBlock)
  | 0, _ => []
  | depth + 1, blocks =>
    match branches blocks with
    | [] => []
    | next => blocks :: next.flatMap fun (_, tails) => innerNodes depth tails

/-- The number of edges of the tree of some blocks; `previous` is the block before them. -/
def edgeCount (previous : ByteBlock) : List ByteBlock → Nat
  | [] => 0
  | block :: blocks =>
    let shared := ((previous.zip block).takeWhile fun (r, r') => r == r').length
    block.length - shared + edgeCount block blocks

end HostRules.Regex
