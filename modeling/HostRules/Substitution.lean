/-
HostRules/Substitution.lean

Putting the values of variables into a text.  A variable is mentioned by its name, wherever
the name occurs; longer names are replaced before shorter ones, and names of one length in
their order.  Each replacement works on what the ones before it have left.
-/
import HostRules.Table
import HostRules.Value

namespace HostRules

/-- The variables of a scope, by name. -/
abbrev Bindings := Table (Value String)

/-! ### Replacing one name -/

/-- Replaces the occurrences of `name`, from left to right and without overlap; the first
`skipped` characters belong to an occurrence that has been replaced. -/
def replaceFrom (name text : List Char) : (skipped : Nat) → List Char → List Char
  | _, [] => []
  | k + 1, _ :: cs => replaceFrom name text k cs
  | 0, c :: cs =>
    if name.isPrefixOf (c :: cs) then text ++ replaceFrom name text (name.length - 1) cs
    else c :: replaceFrom name text 0 cs

/-- Replaces every occurrence of `name` by `text`. -/
def replaceAll (name text : List Char) (cs : List Char) : List Char := replaceFrom name text 0 cs

theorem replaceFrom_skipped (name text : List Char) (k : Nat) (cs : List Char) :
    replaceFrom name text k cs = replaceAll name text (cs.drop k) := by
  induction k generalizing cs with
  | zero => rfl
  | succ k ih =>
    cases cs with
    | nil => rfl
    | cons c cs =>
      rw [replaceFrom, ih, List.drop_succ_cons]

theorem replaceAll_cons_of_not_starts {name text cs : List Char} {c : Char}
    (h : ¬ name <+: c :: cs) : replaceAll name text (c :: cs) = c :: replaceAll name text cs := by
  have hp : name.isPrefixOf (c :: cs) = false := by
    rw [← Bool.not_eq_true, List.isPrefixOf_iff_prefix]
    exact h
  rw [replaceAll, replaceFrom, hp]
  rfl

theorem replaceAll_append_left {name text cs : List Char} (h : name ≠ []) :
    replaceAll name text (name ++ cs) = text ++ replaceAll name text cs := by
  cases name with
  | nil => exact absurd rfl h
  | cons n name =>
    have hp : (n :: name).isPrefixOf (n :: (name ++ cs)) = true :=
      List.isPrefixOf_iff_prefix.mpr ⟨cs, rfl⟩
    rw [List.cons_append, replaceAll, replaceFrom, hp, if_pos rfl, replaceFrom_skipped]
    simp

/-! ### The order of names -/

/-- The number of bytes of a text in UTF-8. -/
def byteLength (cs : List Char) : Nat := cs.foldr (·.utf8Size + ·) 0

/-- The name of a variable and the text that takes its place. -/
structure Reference where
  name : List Char
  text : List Char
deriving DecidableEq

/-- Adds a length to some descending lengths, unless it is there. -/
def insertLength (n : Nat) : List Nat → List Nat
  | [] => [n]
  | m :: ms => if m < n then n :: m :: ms else if m = n then m :: ms else m :: insertLength n ms

/-- The lengths of the names, each once, the greatest first. -/
def nameLengths (refs : List Reference) : List Nat :=
  refs.foldr (fun r ns => insertLength (byteLength r.name) ns) []

/-- The references that have a name, the longest names first; names of one length keep their
order. -/
def longestFirst (refs : List Reference) : List Reference :=
  let named := refs.filter (!·.name.isEmpty)
  (nameLengths named).flatMap fun n => named.filter (byteLength ·.name == n)

/-! ### Substitutions -/

/-- References in the order of their replacement. -/
abbrev Substitution := List Reference

/-- The substitution of the values of variables for their names. -/
def Bindings.substitution (bindings : Bindings) : Substitution :=
  longestFirst (bindings.entries.map fun e => ⟨e.1.toList, e.2.text.toList⟩)

namespace Substitution

/-- Replaces all references in turn. -/
def applyChars (σ : Substitution) (cs : List Char) : List Char :=
  σ.foldl (fun cs r => replaceAll r.name r.text cs) cs

/-- Replaces all references in a text. -/
def apply (σ : Substitution) (text : String) : String := String.ofList (σ.applyChars text.toList)

/-- Replaces all references in every item of a value. -/
def applyValue (σ : Substitution) (v : Value String) : Value String := v.map σ.apply

/-- Replaces all references in every value of a table, but for the names `excluded`. -/
def applyTable (σ : Substitution) (excluded : List String) (t : Bindings) : Bindings :=
  t.mapEntries fun name v => if excluded.contains name then v else σ.applyValue v

end Substitution

/-! ### What is replaced, and in which order -/

theorem mem_insertLength {k n : Nat} {ms : List Nat} :
    k ∈ insertLength n ms ↔ k = n ∨ k ∈ ms := by
  induction ms with
  | nil => simp [insertLength]
  | cons m ms ih =>
    unfold insertLength
    split
    · exact List.mem_cons
    · split
      · next h => simp [h]
      · rw [List.mem_cons, ih, List.mem_cons]
        exact or_left_comm

theorem pairwise_insertLength {n : Nat} {ms : List Nat} (h : ms.Pairwise (· > ·)) :
    (insertLength n ms).Pairwise (· > ·) := by
  induction ms with
  | nil => exact List.pairwise_singleton _ _
  | cons m ms ih =>
    have hms := List.pairwise_cons.mp h
    unfold insertLength
    split
    · next hlt =>
      refine List.pairwise_cons.mpr ⟨fun k hk => ?_, h⟩
      rcases List.mem_cons.mp hk with rfl | hk
      · exact hlt
      · exact Nat.lt_trans (hms.1 k hk) hlt
    · split
      · exact h
      · refine List.pairwise_cons.mpr ⟨fun k hk => ?_, ih hms.2⟩
        rcases mem_insertLength.mp hk with rfl | hk
        · omega
        · exact hms.1 k hk

theorem mem_nameLengths {n : Nat} {refs : List Reference} :
    n ∈ nameLengths refs ↔ ∃ r ∈ refs, byteLength r.name = n := by
  induction refs with
  | nil => simp [nameLengths]
  | cons s refs ih =>
    rw [nameLengths, List.foldr_cons, mem_insertLength]
    change n = _ ∨ n ∈ nameLengths refs ↔ _
    simp [ih, eq_comm]

theorem pairwise_nameLengths (refs : List Reference) :
    (nameLengths refs).Pairwise (· > ·) := by
  induction refs with
  | nil => exact List.Pairwise.nil
  | cons r refs ih => exact pairwise_insertLength ih

theorem mem_longestFirst {r : Reference} {refs : List Reference} :
    r ∈ longestFirst refs ↔ r ∈ refs ∧ r.name ≠ [] := by
  have named : r ∈ refs.filter (!·.name.isEmpty) ↔ r ∈ refs ∧ r.name ≠ [] := by
    simp [List.mem_filter]
  unfold longestFirst
  rw [List.mem_flatMap, ← named]
  constructor
  · rintro ⟨n, _, hr⟩
    exact (List.mem_filter.mp hr).1
  · intro hr
    exact ⟨byteLength r.name, mem_nameLengths.mpr ⟨r, hr, rfl⟩,
      List.mem_filter.mpr ⟨hr, beq_self_eq_true _⟩⟩

theorem pairwise_longestFirst (refs : List Reference) :
    (longestFirst refs).Pairwise fun r s => byteLength s.name ≤ byteLength r.name := by
  have hlen : ∀ (named : List Reference) n,
      ∀ r ∈ named.filter (byteLength ·.name == n), byteLength r.name = n := by
    intro named n r hr
    exact eq_of_beq (List.mem_filter.mp hr).2
  refine List.pairwise_flatMap.mpr ⟨?_, ?_⟩
  · intro n _
    refine List.pairwise_iff_forall_sublist.mpr ?_
    intro r s hrs
    have hr := hlen _ n r (hrs.subset (by simp))
    have hs := hlen _ n s (hrs.subset (by simp))
    omega
  · refine (pairwise_nameLengths _).imp ?_
    intro m n hmn r hr s hs
    rw [hlen _ m r hr, hlen _ n s hs]
    omega

end HostRules
