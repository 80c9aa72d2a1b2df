/-
HostRules/Proofs/SinglePass.lean

One replacement after the other, and all of them at once.  Putting in values replaces each name
in what the names before it have left.  A reader of the file thinks of a single pass instead:
going over the text from left to right, every `$` is the beginning of the longest name that
stands there, and what has been put in is not looked at again.

The two agree where the references of a text are kept apart: names have no `$` but the first
character, values have none, and behind the first `$` of the text every other one comes after a
character that no name has (`Divided`).

Design.  The text is cut at such characters (`DividedBehind.cut`).  Neither way of replacing looks
across one of them (`Substitution.applyChars_append_cons`, `Bindings.passFrom_append_cons`), so one
`$` is left to compare, and there the order of the names makes the longest one come first
(`Substitution.applyChars_longest`).

Main result: `Bindings.apply_eq_pass`.
-/
import HostRules.Proofs.LongerNames
import Mathlib.Data.List.MinMax

namespace HostRules

variable {cs front rest w : List Char} {c d : Char}

/-! ### All replacements in turn -/

namespace Substitution

variable {σ : Substitution}

/-- On the two sides of a character that no name has, names are replaced as if the other side were
not there. -/
theorem applyChars_append_cons (hσ : ∀ r ∈ σ, r.name ≠ [] ∧ d ∉ r.name) (front rest : List Char) :
    σ.applyChars (front ++ d :: rest) = σ.applyChars front ++ d :: σ.applyChars rest := by
  induction σ generalizing front rest with
  | nil => rfl
  | cons r σ ih =>
    obtain ⟨⟨hne, hd⟩, hσ'⟩ := List.forall_mem_cons.mp hσ
    show applyChars σ (replaceAll r.name r.text (front ++ d :: rest)) = _
    rw [replaceAll_append_cons hne hd]
    exact ih hσ' _ _

/-- A character that is not `$` stays. -/
theorem applyChars_cons_of_ne (hσ : ∀ r ∈ σ, r.name.head? = some '$') (hc : c ≠ '$')
    (cs : List Char) : σ.applyChars (c :: cs) = c :: σ.applyChars cs := by
  induction σ generalizing cs with
  | nil => rfl
  | cons r σ ih =>
    obtain ⟨hr, hσ'⟩ := List.forall_mem_cons.mp hσ
    show applyChars σ (replaceAll r.name r.text (c :: cs)) = _
    rw [replaceAll_cons_of_ne hr hc]
    exact ih hσ' _

/-- The last `$` of a text stays if no name stands there. -/
theorem applyChars_of_no_name (hσ : ∀ r ∈ σ, r.name.head? = some '$') (h : '$' ∉ rest)
    (hnone : ∀ r ∈ σ, ¬ r.name <+: '$' :: rest) :
    σ.applyChars ('$' :: rest) = '$' :: rest := by
  refine applyChars_eq_self fun r hr => ?_
  rw [replaceAll_cons_of_not_starts (hnone r hr), replaceAll_of_not_mem (hσ r hr) h]

/-- At the last `$` of a text, among replacements in the order of their length, the longest name
that stands there gets its value. -/
theorem applyChars_longest (hσ : ∀ r ∈ σ, r.name.head? = some '$')
    (horder : σ.Pairwise fun r s => byteLength s.name ≤ byteLength r.name)
    {r : Reference} (hr : r ∈ σ) (hunique : ∀ s ∈ σ, s.name = r.name → s = r)
    (hclosed : '$' ∉ r.text) (hname : r.name = '$' :: w) (hrest : '$' ∉ w ++ rest)
    (hlong : ∀ s ∈ σ, s.name <+: '$' :: (w ++ rest) → s.name <+: r.name) :
    σ.applyChars ('$' :: (w ++ rest)) = r.text ++ rest := by
  obtain ⟨before, after, rfl, hfirst⟩ := List.eq_append_cons_of_mem hr
  have hbefore : ∀ s ∈ before, s ∈ before ++ r :: after := fun s hs =>
    List.mem_append_left _ hs
  have hafter : ∀ s ∈ after, s ∈ before ++ r :: after := fun s hs =>
    List.mem_append_right _ (List.mem_cons_of_mem _ hs)
  -- the names before are at least as long, so none of them stands there
  have hnone : ∀ s ∈ before, ¬ s.name <+: '$' :: (w ++ rest) := by
    intro s hs hprefix
    have hlength := (List.pairwise_append.mp horder).2.2 s hs r List.mem_cons_self
    have heq := eq_of_prefix_of_byteLength_le (hlong s (hbefore s hs) hprefix) hlength
    exact hfirst (hunique s (hbefore s hs) heq ▸ hs)
  have hput : replaceAll r.name r.text ('$' :: (w ++ rest)) = r.text ++ rest := by
    rw [← List.cons_append, ← hname, replaceAll_append_left (by simp [hname]),
      replaceAll_of_not_mem (hσ r hr) fun hmem => hrest (List.mem_append_right w hmem)]
  -- no `$` is left for the names behind
  have hleft : '$' ∉ r.text ++ rest := by
    rw [List.mem_append]
    exact not_or.mpr ⟨hclosed, fun hmem => hrest (List.mem_append_right w hmem)⟩
  calc applyChars (before ++ r :: after) ('$' :: (w ++ rest))
      = applyChars after (replaceAll r.name r.text (applyChars before ('$' :: (w ++ rest)))) := by
        unfold applyChars
        rw [List.foldl_append, List.foldl_cons]
    _ = applyChars after (r.text ++ rest) := by
        rw [applyChars_of_no_name (fun s hs => hσ s (hbefore s hs)) hrest hnone, hput]
    _ = r.text ++ rest := applyChars_of_not_mem (fun s hs => hσ s (hafter s hs)) hleft

end Substitution

/-! ### One pass -/

namespace Bindings

variable {b : Bindings}

/-- The longest of the names that a text begins with, and its value. -/
def longestName? (b : Bindings) (cs : List Char) : Option (String × Value String) :=
  (b.entries.filter (·.1.toList.isPrefixOf cs)).argmax (·.1.length)

/-- Goes over a text from left to right, and at each `$` puts in the value of the longest name that
stands there; the first `skipped` characters belong to a name whose value has been put in. -/
def passFrom (b : Bindings) : (skipped : Nat) → List Char → List Char
  | _, [] => []
  | k + 1, _ :: cs => b.passFrom k cs
  | 0, c :: cs =>
    match if c = '$' then b.longestName? (c :: cs) else none with
    | some e => e.2.text.toList ++ b.passFrom (e.1.length - 1) cs
    | none => c :: b.passFrom 0 cs

/-- One pass over a text, from the beginning. -/
def pass (b : Bindings) (text : String) : String := String.ofList (b.passFrom 0 text.toList)

theorem longestName?_eq_none (h : b.longestName? cs = none) :
    ∀ e ∈ b.entries, ¬ e.1.toList <+: cs := by
  intro e he hprefix
  have hnil := List.argmax_eq_none.mp h
  have hmem : e ∈ b.entries.filter (·.1.toList.isPrefixOf cs) :=
    List.mem_filter.mpr ⟨he, List.isPrefixOf_iff_prefix.mpr hprefix⟩
  rw [hnil] at hmem
  exact List.not_mem_nil hmem

theorem longestName?_eq_some {e : String × Value String} (h : b.longestName? cs = some e) :
    e ∈ b.entries ∧ e.1.toList <+: cs ∧
      ∀ e' ∈ b.entries, e'.1.toList <+: cs → e'.1.toList <+: e.1.toList := by
  obtain ⟨he, hprefix⟩ := List.mem_filter.mp (List.argmax_mem h)
  have hprefix' := List.isPrefixOf_iff_prefix.mp hprefix
  refine ⟨he, hprefix', fun e' he' h' => ?_⟩
  have hmem : e' ∈ b.entries.filter (·.1.toList.isPrefixOf cs) :=
    List.mem_filter.mpr ⟨he', List.isPrefixOf_iff_prefix.mpr h'⟩
  have hle := List.le_of_mem_argmax hmem h
  rw [← String.length_toList, ← String.length_toList] at hle
  exact List.prefix_of_prefix_length_le h' hprefix' hle

theorem longestName?_nil (hb : ∀ n ∈ b.names, n.toList ≠ []) : b.longestName? [] = none := by
  cases h : b.longestName? [] with
  | none => rfl
  | some e =>
    obtain ⟨he, hprefix, -⟩ := longestName?_eq_some h
    exact absurd (List.prefix_nil.mp hprefix) (hb e.1 (List.mem_map_of_mem he))

/-- The longest name ends before a character that no name has. -/
theorem longestName?_append_cons (hd : ∀ n ∈ b.names, d ∉ n.toList) (front rest : List Char) :
    b.longestName? (front ++ d :: rest) = b.longestName? front := by
  unfold longestName?
  congr 1
  refine List.filter_congr fun e he => ?_
  rw [Bool.eq_iff_iff, List.isPrefixOf_iff_prefix, List.isPrefixOf_iff_prefix]
  constructor
  · intro h
    exact prefix_of_not_mem (hd e.1 (List.mem_map_of_mem he)) h
  · intro h
    exact h.trans (List.prefix_append front _)

theorem passFrom_skipped (b : Bindings) (k : Nat) (cs : List Char) :
    b.passFrom k cs = b.passFrom 0 (cs.drop k) := by
  induction k generalizing cs with
  | zero => rfl
  | succ k ih =>
    cases cs with
    | nil => rfl
    | cons c cs =>
      rw [passFrom, ih, List.drop_succ_cons]

theorem passFrom_cons_of_ne (hc : c ≠ '$') : b.passFrom 0 (c :: cs) = c :: b.passFrom 0 cs := by
  rw [passFrom, if_neg hc]

theorem passFrom_longest {n : String} {v : Value String} (hname : n.toList = '$' :: w)
    (hlongest : b.longestName? ('$' :: (w ++ rest)) = some (n, v)) :
    b.passFrom 0 ('$' :: (w ++ rest)) = v.text.toList ++ b.passFrom 0 rest := by
  rw [passFrom, if_pos rfl, hlongest]
  show v.text.toList ++ b.passFrom (n.length - 1) (w ++ rest) = _
  rw [passFrom_skipped, ← String.length_toList, hname, List.length_cons, Nat.add_sub_cancel,
    List.drop_left]

theorem passFrom_of_not_mem (h : '$' ∉ cs) : b.passFrom 0 cs = cs := by
  induction cs with
  | nil => rfl
  | cons c cs ih =>
    obtain ⟨hc, hcs⟩ := not_or.mp (mt List.mem_cons.mpr h)
    rw [passFrom_cons_of_ne (Ne.symm hc), ih hcs]

/-- On the two sides of a character that no name has, the pass goes on as if the other side were
not there. -/
theorem passFrom_append_cons (hb : ∀ n ∈ b.names, n.toList ≠ [] ∧ d ∉ n.toList) {k : Nat}
    (hk : k ≤ front.length) (rest : List Char) :
    b.passFrom k (front ++ d :: rest) = b.passFrom k front ++ d :: b.passFrom 0 rest := by
  have hlongest : ∀ front, b.longestName? (front ++ d :: rest) = b.longestName? front :=
    fun front => longestName?_append_cons (fun n hn => (hb n hn).2) front rest
  -- along the recursion: a name that is being skipped ends on the left side
  induction front generalizing k with
  | nil =>
    obtain rfl : k = 0 := Nat.le_zero.mp hk
    have hnone : b.longestName? (d :: rest) = none :=
      (hlongest []).trans (longestName?_nil fun n hn => (hb n hn).1)
    show b.passFrom 0 (d :: rest) = d :: b.passFrom 0 rest
    rw [passFrom, hnone, ite_self]
  | cons c front ih =>
    cases k with
    | succ k => exact ih (Nat.le_of_succ_le_succ hk)
    | zero =>
      rw [List.cons_append, passFrom, passFrom, ← List.cons_append, hlongest]
      split
      · next e he =>
        have hprefix : e.1.toList <+: c :: front := by
          split at he
          · exact (longestName?_eq_some he).2.1
          · cases he
        have hle := hprefix.length_le
        rw [String.length_toList, List.length_cons] at hle
        rw [ih (by omega), List.append_assoc]
      · rw [ih (Nat.zero_le _)]
        rfl

end Bindings

/-! ### Texts with their references kept apart -/

/-- Every `$` of a text comes after a character that no name has; `before` is the character that
the text comes after. -/
def DividedBehind (names : List String) : (before : Char) → List Char → Prop
  | _, [] => True
  | before, c :: cs => (c = '$' → ∀ n ∈ names, before ∉ n.toList) ∧ DividedBehind names c cs

/-- Every `$` of a text but the first comes after a character that no name has. -/
def Divided (names : List String) : List Char → Prop
  | [] => True
  | c :: cs => if c = '$' then DividedBehind names c cs else Divided names cs

/-- The characters before each `$` are found by reading the text. -/
def decideDividedBehind (names : List String) :
    (before : Char) → (cs : List Char) → Decidable (DividedBehind names before cs)
  | _, [] => isTrue trivial
  | before, c :: cs =>
    @instDecidableAnd (c = '$' → ∀ n ∈ names, before ∉ n.toList) _ inferInstance
      (decideDividedBehind names c cs)

def decideDivided (names : List String) : (cs : List Char) → Decidable (Divided names cs)
  | [] => isTrue trivial
  | c :: cs =>
    have := decideDividedBehind names c cs
    have := decideDivided names cs
    inferInstanceAs (Decidable (if c = '$' then DividedBehind names c cs else Divided names cs))

instance (names : List String) (cs : List Char) : Decidable (Divided names cs) :=
  decideDivided names cs

/-- A text with a `$` can be cut at a character that no name has, before the first one. -/
theorem DividedBehind.cut {names : List String} {before : Char}
    (h : DividedBehind names before cs) (hmem : '$' ∈ cs) :
    ∃ front d rest, before :: cs = front ++ d :: '$' :: rest ∧ '$' ∉ front.tail ∧
      (∀ n ∈ names, d ∉ n.toList) ∧ DividedBehind names '$' rest := by
  induction cs generalizing before with
  | nil => exact absurd hmem List.not_mem_nil
  | cons c cs ih =>
    obtain ⟨hfirst, hrest⟩ := h
    by_cases hc : c = '$'
    · subst hc
      exact ⟨[], before, cs, rfl, List.not_mem_nil, hfirst rfl, hrest⟩
    · have hcs : '$' ∈ cs := (List.mem_cons.mp hmem).resolve_left (Ne.symm hc)
      obtain ⟨front, d, rest, hcut, hfront, hd, hmore⟩ := ih hrest hcs
      refine ⟨before :: front, d, rest, congrArg (before :: ·) hcut, ?_, hd, hmore⟩
      cases front with
      | nil => exact List.not_mem_nil
      | cons e front =>
        obtain ⟨rfl, -⟩ := List.cons.inj hcut
        exact List.not_mem_cons_of_ne_of_not_mem (Ne.symm hc) hfront

/-! ### The two agree -/

namespace Bindings

variable {b : Bindings}

/-- At the last `$` of a text. -/
theorem applyChars_eq_passFrom_last (hn : ∀ n ∈ b.names, n.toList.head? = some '$')
    (hclosed : ∀ e ∈ b.entries, Closed e.2.text) (h : '$' ∉ cs) :
    b.substitution.applyChars ('$' :: cs) = b.passFrom 0 ('$' :: cs) := by
  have hσ := forall_substitution (fun w => w.head? = some '$') hn
  cases hlongest : b.longestName? ('$' :: cs) with
  | none =>
    have hpass : b.passFrom 0 ('$' :: cs) = '$' :: cs := by
      rw [passFrom, if_pos rfl, hlongest, passFrom_of_not_mem h]
    rw [hpass]
    refine Substitution.applyChars_of_no_name hσ h fun r hr => ?_
    obtain ⟨n, v, hget, rfl, -⟩ := mem_substitution.mp hr
    exact longestName?_eq_none hlongest _ (Table.get?_eq_some_iff.mp hget)
  | some e =>
    obtain ⟨n, v⟩ := e
    obtain ⟨he, hprefix, hlong⟩ := longestName?_eq_some hlongest
    have hget : b.get? n = some v := Table.get?_eq_some_iff.mpr he
    obtain ⟨w, hname⟩ := List.head?_eq_some_iff.mp (hn n (List.mem_map_of_mem he))
    obtain ⟨rest, rfl⟩ : w <+: cs := (List.cons_prefix_cons.mp (hname ▸ hprefix)).2
    have hrest : '$' ∉ rest := fun hmem => h (List.mem_append_right w hmem)
    rw [passFrom_longest hname hlongest, passFrom_of_not_mem hrest]
    refine Substitution.applyChars_longest hσ (pairwise_longestFirst _)
      (mem_substitution.mpr ⟨n, v, hget, rfl, by simp [hname]⟩) ?_ (hclosed _ he) hname h ?_
    · intro s hs heq
      obtain ⟨m, u, hm, rfl, -⟩ := mem_substitution.mp hs
      obtain rfl : m = n := String.toList_injective heq
      rw [hget] at hm
      rw [Option.some.inj hm]
    · intro s hs hprefix
      obtain ⟨m, u, hm, rfl, -⟩ := mem_substitution.mp hs
      exact hlong _ (Table.get?_eq_some_iff.mp hm) hprefix

/-- At the first `$` of a text, and behind it. -/
theorem applyChars_eq_passFrom_behind (hn : ∀ n ∈ b.names, n.toList.head? = some '$')
    (hclosed : ∀ e ∈ b.entries, Closed e.2.text) (h : DividedBehind b.names '$' cs) :
    b.substitution.applyChars ('$' :: cs) = b.passFrom 0 ('$' :: cs) := by
  -- by the length of the text, which is cut before its second `$`
  induction hlen : cs.length using Nat.strongRecOn generalizing cs with
  | ind k ih =>
    subst hlen
    have hσ := forall_substitution (fun w => w.head? = some '$') hn
    by_cases hmem : '$' ∈ cs
    · obtain ⟨front, d, rest, hcut, hfront, hd, hrest⟩ := h.cut hmem
      have hshort : rest.length < cs.length := by
        have hlength := congrArg List.length hcut
        simp only [List.length_cons, List.length_append] at hlength
        omega
      have hone : b.substitution.applyChars front = b.passFrom 0 front := by
        cases front with
        | nil => exact Substitution.applyChars_of_not_mem hσ List.not_mem_nil
        | cons e front =>
          obtain ⟨rfl, -⟩ := List.cons.inj hcut
          exact applyChars_eq_passFrom_last hn hclosed hfront
      have hd' : ∀ n ∈ b.names, n.toList ≠ [] ∧ d ∉ n.toList := by
        intro n hmem
        obtain ⟨w, hname⟩ := List.head?_eq_some_iff.mp (hn n hmem)
        exact ⟨hname ▸ List.cons_ne_nil '$' w, hd n hmem⟩
      have hσd := forall_substitution (fun w => w ≠ [] ∧ d ∉ w) hd'
      rw [hcut, Substitution.applyChars_append_cons hσd, passFrom_append_cons hd' (Nat.zero_le _),
        hone, ih _ hshort hrest rfl]
    · exact applyChars_eq_passFrom_last hn hclosed hmem

theorem applyChars_eq_passFrom (hn : ∀ n ∈ b.names, n.toList.head? = some '$')
    (hclosed : ∀ e ∈ b.entries, Closed e.2.text) (h : Divided b.names cs) :
    b.substitution.applyChars cs = b.passFrom 0 cs := by
  have hσ := forall_substitution (fun w => w.head? = some '$') hn
  induction cs with
  | nil => exact Substitution.applyChars_of_not_mem hσ List.not_mem_nil
  | cons c cs ih =>
    unfold Divided at h
    split at h
    · next hc =>
      subst hc
      exact applyChars_eq_passFrom_behind hn hclosed h
    · next hc =>
      rw [Substitution.applyChars_cons_of_ne hσ hc, passFrom_cons_of_ne hc, ih h]

/-- **One pass**: where names begin with `$`, values have none, and behind the first `$` of a text
every other one comes after a character that no name has, the replacements in turn do what a
single pass does that puts in the longest name at each `$`.  Nothing is asked of a second `$` in a
name: such a name does not stand in a text like this. -/
theorem apply_eq_pass (b : Bindings) (text : String)
    (hn : ∀ n ∈ b.names, n.toList.head? = some '$') (hclosed : ∀ e ∈ b.entries, Closed e.2.text)
    (h : Divided b.names text.toList) : b.substitution.apply text = b.pass text :=
  congrArg String.ofList (applyChars_eq_passFrom hn hclosed h)

/-- A variable, two with longer names, one of them with a list. -/
def prefixedSample : Bindings :=
  .ofList [("$a", .scalar "one"), ("$ab", .list ["two", "three"]), ("$abc", .scalar "")]

/-- A name at the beginning, the longest name there, and a `$` that no name stands at. -/
theorem apply_eq_pass_prefixedSample :
    (∀ n ∈ prefixedSample.names, n.toList.head? = some '$') ∧
      (∀ e ∈ prefixedSample.entries, Closed e.2.text) ∧
      Divided prefixedSample.names "$abd/$abc $ $a".toList ∧
      prefixedSample.pass "$abd/$abc $ $a" = "two threed/ $ one" ∧
      prefixedSample.substitution.apply "$abd/$abc $ $a" = "two threed/ $ one" := by
  have hn : ∀ n ∈ prefixedSample.names, n.toList.head? = some '$' := by decide
  have hclosed : ∀ e ∈ prefixedSample.entries, Closed e.2.text := by
    unfold Closed
    decide
  have hdivided : Divided prefixedSample.names "$abd/$abc $ $a".toList := by decide
  have hpass : prefixedSample.pass "$abd/$abc $ $a" = "two threed/ $ one" := by decide
  exact ⟨hn, hclosed, hdivided, hpass,
    (apply_eq_pass prefixedSample _ hn hclosed hdivided).trans hpass⟩

end Bindings

end HostRules
