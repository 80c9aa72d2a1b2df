/-
HostRules/Value.lean

The value of a variable: one item, or a list of any length.  A list that is put into a text
has its items joined with single spaces.
-/

namespace HostRules

/-- One item, or a list of items. -/
inductive Value (α : Type) where
  | scalar (item : α)
  | list (items : List α)
deriving DecidableEq

namespace Value

variable {α β : Type}

/-- The items of a value. -/
def items : Value α → List α
  | scalar item => [item]
  | list items => items

/-- Applies a function to every item. -/
def map (f : α → β) : Value α → Value β
  | scalar item => scalar (f item)
  | list items => list (items.map f)

@[simp] theorem map_id (v : Value α) : v.map (fun a => a) = v := by
  cases v <;> simp [map]

@[simp] theorem items_map (f : α → β) (v : Value α) : (v.map f).items = v.items.map f := by
  cases v <;> rfl

theorem map_map {γ : Type} (f : α → β) (g : β → γ) (v : Value α) :
    (v.map f).map g = v.map (fun a => g (f a)) := by
  cases v <;> simp [map]

theorem map_congr {f g : α → β} {v : Value α} (h : ∀ a ∈ v.items, f a = g a) :
    v.map f = v.map g := by
  cases v with
  | scalar item => exact congrArg scalar (h item (List.mem_singleton.mpr rfl))
  | list items => exact congrArg list (List.map_congr_left h)

/-- A function that leaves every item as it is. -/
theorem map_eq_self {f : α → α} {v : Value α} (h : ∀ a ∈ v.items, f a = a) : v.map f = v :=
  (map_congr h).trans (map_id v)

/-- The text that stands for a value inside a text. -/
def text : Value String → String
  | scalar item => item
  | list items => " ".intercalate items

end Value

end HostRules
