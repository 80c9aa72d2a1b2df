/-
HostRules/Block.lean

The three levels of a rule file.  The global block is the file itself; it holds domain
blocks, and those hold location blocks.
-/

namespace HostRules

/-- The kinds of block, outermost first. -/
inductive BlockKind where
  | global
  | domain
  | location
deriving DecidableEq

namespace BlockKind

/-- The name of a kind of block in messages. -/
def name : BlockKind → String
  | global => "GlobalBlock"
  | domain => "DomainBlock"
  | location => "LocationBlock"

/-- How many blocks stand around a block of this kind. -/
def depth : BlockKind → Nat
  | global => 0
  | domain => 1
  | location => 2

/-- The kind that may open directly inside. -/
def child? : BlockKind → Option BlockKind
  | global => some domain
  | domain => some location
  | location => none

/-- The kind that stands directly around. -/
def parent? : BlockKind → Option BlockKind
  | global => none
  | domain => some global
  | location => some domain

theorem child?_eq_some_iff {a b : BlockKind} : a.child? = some b ↔ b.parent? = some a := by
  cases a <;> cases b <;> decide

theorem child?_eq_some_iff_depth {a b : BlockKind} :
    a.child? = some b ↔ b.depth = a.depth + 1 := by
  cases a <;> cases b <;> decide

end BlockKind

end HostRules
