/-
HostRules/Table.lean

Finite tables keyed by names.  The entries are kept in the order of their names, each name
once, so that two tables with the same look-ups are equal (`Table.ext_get?`).  Names are
ordered by their characters, which is also the order of their UTF-8 bytes.
-/

namespace HostRules

variable {α β : Type}

/-! ### Sorted lists of entries -/

/-- Whether the names of some entries ascend. -/
def Ascending (entries : List (String × α)) : Prop := entries.Pairwise (·.1 < ·.1)

/-- Enters a value under a name, in place of the value it may have had. -/
def insertEntry (name : String) (a : α) : List (String × α) → List (String × α)
  | [] => [(name, a)]
  | e :: es =>
    if name < e.1 then (name, a) :: e :: es
    else if name = e.1 then (name, a) :: es
    else e :: insertEntry name a es

/-- The value under a name. -/
def lookupEntry (name : String) : List (String × α) → Option α
  | [] => none
  | e :: es => if name = e.1 then some e.2 else lookupEntry name es

theorem mem_insertEntry_fst {name key : String} {a : α} {es : List (String × α)}
    (h : key ∈ (insertEntry name a es).map (·.1)) : key = name ∨ key ∈ es.map (·.1) := by
  induction es with
  | nil => simpa [insertEntry] using h
  | cons e es ih =>
    unfold insertEntry at h
    split at h
    · simpa using h
    split at h
    · next heq =>
      subst heq
      simpa using h
    · have h' : key = e.1 ∨ key ∈ (insertEntry name a es).map (·.1) := by simpa using h
      rcases h' with h' | h'
      · exact Or.inr (by simp [h'])
      · rcases ih h' with h'' | h''
        · exact Or.inl h''
        · exact Or.inr (by
            rw [List.map_cons]
            exact List.mem_cons_of_mem _ h'')

theorem lt_of_not_lt_of_ne {a b : String} (h : ¬ a < b) (hne : a ≠ b) : b < a :=
  Std.lt_of_le_of_ne (String.not_lt.mp h) hne.symm

theorem ascending_insertEntry {name : String} {a : α} {es : List (String × α)}
    (h : Ascending es) : Ascending (insertEntry name a es) := by
  induction es with
  | nil => exact List.pairwise_singleton _ _
  | cons e es ih =>
    obtain ⟨hhead, htail⟩ := List.pairwise_cons.mp h
    unfold insertEntry
    split
    · next hlt =>
      refine List.pairwise_cons.mpr ⟨?_, h⟩
      intro x hx
      rcases List.mem_cons.mp hx with rfl | hx
      · exact hlt
      · exact String.lt_trans hlt (hhead x hx)
    split
    · next heq =>
      subst heq
      exact List.pairwise_cons.mpr ⟨hhead, htail⟩
    · next hlt hne =>
      refine List.pairwise_cons.mpr ⟨?_, ih htail⟩
      intro x hx
      have hx' := mem_insertEntry_fst (List.mem_map_of_mem (f := (·.1)) hx)
      rcases hx' with hx' | hx'
      · rw [hx']
        exact lt_of_not_lt_of_ne hlt hne
      · obtain ⟨y, hy, hyx⟩ := List.mem_map.mp hx'
        rw [← hyx]
        exact hhead y hy

/-! ### Tables -/

/-- A table: entries in the order of their names. -/
structure Table (α : Type) where
  entries : List (String × α)
  ascending : Ascending entries

namespace Table

/-- The table without entries. -/
def empty : Table α := ⟨[], List.Pairwise.nil⟩

instance : EmptyCollection (Table α) := ⟨empty⟩

/-- The value under a name. -/
def get? (t : Table α) (name : String) : Option α := lookupEntry name t.entries

/-- Whether a name has an entry. -/
def contains (t : Table α) (name : String) : Bool := (t.get? name).isSome

/-- The names, in order. -/
def names (t : Table α) : List String := t.entries.map (·.1)

/-- The number of entries. -/
def size (t : Table α) : Nat := t.entries.length

/-- Enters a value under a name, in place of the value it may have had. -/
def insert (t : Table α) (name : String) (a : α) : Table α :=
  ⟨insertEntry name a t.entries, ascending_insertEntry t.ascending⟩

/-- The table of some entries; of several under one name the last counts. -/
def ofList (entries : List (String × α)) : Table α :=
  entries.foldl (fun t e => t.insert e.1 e.2) ∅

/-- Applies a function to every entry. -/
def mapEntries (f : String → α → β) (t : Table α) : Table β :=
  ⟨t.entries.map fun e => (e.1, f e.1 e.2), by
    have h := t.ascending
    unfold Ascending at h ⊢
    rw [List.pairwise_map]
    exact h⟩

/-- The entries of both tables; `u` decides where both have one. -/
def overlay (t u : Table α) : Table α :=
  u.entries.foldl (fun t e => t.insert e.1 e.2) t

/-- The entries of both tables; `t` decides where both have one. -/
def fillFrom (t u : Table α) : Table α := u.overlay t

/-! ### Look-ups -/

theorem lookup_insertEntry (name key : String) (a : α) (es : List (String × α)) :
    lookupEntry key (insertEntry name a es) =
      if key = name then some a else lookupEntry key es := by
  induction es with
  | nil => rfl
  | cons e es ih =>
    unfold insertEntry
    split
    · rfl
    split
    · next heq =>
      by_cases hk : key = name
      · simp [lookupEntry, hk]
      · simp [lookupEntry, hk, heq ▸ hk]
    · next hne =>
      rw [lookupEntry, ih, lookupEntry]
      by_cases hk : key = name
      · have hke : key ≠ e.1 := fun h => hne (hk ▸ h)
        simp [hk, hk ▸ hke]
      · simp [hk]

@[simp] theorem get?_empty (name : String) : (∅ : Table α).get? name = none := rfl

theorem get?_insert (t : Table α) (name key : String) (a : α) :
    (t.insert name a).get? key = if key = name then some a else t.get? key :=
  lookup_insertEntry name key a t.entries

theorem mem_of_lookup {es : List (String × α)} {name : String} {a : α}
    (h : lookupEntry name es = some a) : (name, a) ∈ es := by
  induction es with
  | nil => simp [lookupEntry] at h
  | cons e es ih =>
    unfold lookupEntry at h
    split at h
    · next heq =>
      rw [heq, ← Option.some.inj h]
      exact List.mem_cons_self
    · exact List.mem_cons_of_mem _ (ih h)

theorem lookup_of_mem {es : List (String × α)} (hs : Ascending es) {name : String} {a : α}
    (h : (name, a) ∈ es) : lookupEntry name es = some a := by
  induction es with
  | nil => simp at h
  | cons e es ih =>
    obtain ⟨hhead, htail⟩ := List.pairwise_cons.mp hs
    rcases List.mem_cons.mp h with rfl | h'
    · simp [lookupEntry]
    · have hne : name ≠ e.1 := fun heq => String.lt_irrefl _ (heq ▸ hhead _ h')
      rw [lookupEntry, if_neg hne]
      exact ih htail h'

theorem get?_eq_some_iff {t : Table α} {name : String} {a : α} :
    t.get? name = some a ↔ (name, a) ∈ t.entries :=
  ⟨mem_of_lookup, lookup_of_mem t.ascending⟩

/-- The names of a table are those under which it has a value. -/
theorem mem_names_iff {t : Table α} {name : String} :
    name ∈ t.names ↔ (t.get? name).isSome = true := by
  unfold names
  rw [List.mem_map, Option.isSome_iff_exists]
  constructor
  · rintro ⟨⟨key, a⟩, hmem, rfl⟩
    exact ⟨a, get?_eq_some_iff.mpr hmem⟩
  · rintro ⟨a, ha⟩
    exact ⟨(name, a), get?_eq_some_iff.mp ha, rfl⟩

theorem ext_entries {t u : Table α} (h : t.entries = u.entries) : t = u := by
  cases t
  cases u
  cases h
  rfl

instance [DecidableEq α] : DecidableEq (Table α) := fun t u =>
  if h : t.entries = u.entries then isTrue (ext_entries h) else isFalse fun htu => h (htu ▸ rfl)

/-- Sorted entries with the same members are the same entries. -/
theorem entries_eq_of_mem_iff {es fs : List (String × α)} (he : Ascending es)
    (hf : Ascending fs) (h : ∀ x, x ∈ es ↔ x ∈ fs) : es = fs := by
  induction es generalizing fs with
  | nil =>
    cases fs with
    | nil => rfl
    | cons f fs => exact absurd ((h f).mpr List.mem_cons_self) (by simp)
  | cons e es ih =>
    cases fs with
    | nil => exact absurd ((h e).mp List.mem_cons_self) (by simp)
    | cons f fs =>
      obtain ⟨hee, het⟩ := List.pairwise_cons.mp he
      obtain ⟨hff, hft⟩ := List.pairwise_cons.mp hf
      have hef : e = f := by
        rcases List.mem_cons.mp ((h e).mp List.mem_cons_self) with heq | hmem
        · exact heq
        rcases List.mem_cons.mp ((h f).mpr List.mem_cons_self) with heq | hmem'
        · exact heq.symm
        · exact absurd (String.lt_trans (hff e hmem) (hee f hmem')) (String.lt_irrefl _)
      subst hef
      refine congrArg (e :: ·) (ih het hft ?_)
      intro x
      constructor
      · intro hx
        rcases List.mem_cons.mp ((h x).mp (List.mem_cons_of_mem _ hx)) with heq | hmem
        · exact absurd (heq ▸ hee x hx) (String.lt_irrefl _)
        · exact hmem
      · intro hx
        rcases List.mem_cons.mp ((h x).mpr (List.mem_cons_of_mem _ hx)) with heq | hmem
        · exact absurd (heq ▸ hff x hx) (String.lt_irrefl _)
        · exact hmem

/-- Tables with the same look-ups are equal. -/
theorem ext_get? {t u : Table α} (h : ∀ name, t.get? name = u.get? name) : t = u := by
  refine ext_entries (entries_eq_of_mem_iff t.ascending u.ascending ?_)
  rintro ⟨name, a⟩
  rw [← get?_eq_some_iff, ← get?_eq_some_iff, h name]

theorem get?_mapEntries (f : String → α → β) (t : Table α) (name : String) :
    (t.mapEntries f).get? name = (t.get? name).map (f name) := by
  show lookupEntry name (t.entries.map fun e => (e.1, f e.1 e.2)) =
    (lookupEntry name t.entries).map (f name)
  induction t.entries with
  | nil => rfl
  | cons e es ih =>
    rw [List.map_cons, lookupEntry, lookupEntry, ih]
    by_cases h : name = e.1 <;> simp [h]

theorem get?_foldl_insert (es : List (String × α)) (hs : Ascending es) (t : Table α)
    (name : String) :
    (es.foldl (fun t e => t.insert e.1 e.2) t).get? name =
      (lookupEntry name es).or (t.get? name) := by
  induction es generalizing t with
  | nil => rfl
  | cons e es ih =>
    obtain ⟨hhead, htail⟩ := List.pairwise_cons.mp hs
    rw [List.foldl_cons, ih htail, get?_insert, lookupEntry]
    by_cases h : name = e.1
    · have hn : lookupEntry name es = none := by
        cases hl : lookupEntry name es with
        | none => rfl
        | some a => exact absurd (h ▸ hhead _ (mem_of_lookup hl)) (String.lt_irrefl _)
      simp [h, h ▸ hn]
    · simp [h]

theorem get?_overlay (t u : Table α) (name : String) :
    (t.overlay u).get? name = (u.get? name).or (t.get? name) :=
  get?_foldl_insert u.entries u.ascending t name

theorem get?_fillFrom (t u : Table α) (name : String) :
    (t.fillFrom u).get? name = (t.get? name).or (u.get? name) :=
  get?_overlay u t name

end Table

end HostRules
