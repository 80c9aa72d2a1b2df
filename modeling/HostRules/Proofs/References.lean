/-
HostRules/Proofs/References.lean

References in texts.  A text refers to a variable by a `$` and the name characters behind it
(`Refers`).  Putting in values is a sequence of plain replacements, which know nothing of
references; but when no name is the beginning of another, and each `$` stands apart from what
is before it, an occurrence of a name is always a whole reference.

Design.  `Refers known` is followed through the replacements: replacing `name` by a text
takes `name` out of what can be referred to and puts in what the text refers to
(`Refers.replace`).  No replacement makes a reference that was not there, since a
reference ends where a character follows that is neither `$` nor of a name, and that
character stays.
-/
import HostRules.Substitution

namespace HostRules

/-! ### Names of variables -/

/-- Whether a character can stand in the name of a variable, behind the `$`. -/
def isNameChar (c : Char) : Bool := c.isAlphanum || c == '_'

/-- A `$` with one or more name characters behind it. -/
def IsVariable (name : List Char) : Prop :=
  name.head? = some '$' ∧ name.tail ≠ [] ∧ name.tail.all isNameChar = true

instance (name : List Char) : Decidable (IsVariable name) :=
  inferInstanceAs (Decidable (name.head? = some '$' ∧ name.tail ≠ [] ∧
    name.tail.all isNameChar = true))

/-- Names of variables none of which is the beginning of another one. -/
structure Apart (names : List Char → Prop) : Prop where
  isVariable : ∀ m, names m → IsVariable m
  eq_of_prefix : ∀ m n, names m → names n → m <+: n → m = n

/-! ### References -/

/-- Whether a `$` can stand behind what is before it: behind nothing, or behind a character
that is neither `$` nor of a name. -/
def separates : (before : Option Char) → Bool
  | none => true
  | some c => c != '$' && !isNameChar c

/-- Each `$` of a text stands apart from what is before it, and with all the name characters
behind it is one of the names `known`. -/
def Refers (known : List Char → Prop) : (before : Option Char) → List Char → Prop
  | _, [] => True
  | before, c :: cs =>
    (c = '$' → separates before = true ∧ known ('$' :: cs.takeWhile isNameChar)) ∧
      Refers known (some c) cs

/-- References are found by reading the text. -/
def decideRefers (known : List Char → Prop) [DecidablePred known] :
    (before : Option Char) → (cs : List Char) → Decidable (Refers known before cs)
  | _, [] => isTrue trivial
  | before, c :: cs =>
    @instDecidableAnd (c = '$' → separates before = true ∧ known ('$' :: cs.takeWhile isNameChar))
      _ inferInstance (decideRefers known (some c) cs)

instance [DecidablePred known] (before : Option Char) (cs : List Char) :
    Decidable (Refers known before cs) := decideRefers known before cs

variable {known known' : List Char → Prop} {before before' : Option Char} {c d : Char}
  {cs name text rest : List Char}

theorem separates_iff : separates (some d) = true ↔ d ≠ '$' ∧ isNameChar d = false := by
  simp [separates]

theorem not_separates_of_isNameChar (h : isNameChar c = true) : separates (some c) = false := by
  simp [separates, h]

theorem Refers.mono (h : Refers known before cs) (hk : ∀ w, known w → known' w) :
    Refers known' before cs := by
  induction cs generalizing before with
  | nil => trivial
  | cons c cs ih => exact ⟨fun hc => ⟨(h.1 hc).1, hk _ (h.1 hc).2⟩, ih h.2⟩

/-- A text can stand behind anything that separates. -/
theorem Refers.behind (h : Refers known before cs) (hb : separates before' = true) :
    Refers known before' cs := by
  cases cs with
  | nil => trivial
  | cons c cs => exact ⟨fun hc => ⟨hb, (h.1 hc).2⟩, h.2⟩

/-- The name characters at the head of a text end before a character that separates. -/
theorem takeWhile_append_separates (hd : separates (some d) = true) :
    (cs ++ d :: rest).takeWhile isNameChar = cs.takeWhile isNameChar := by
  obtain ⟨-, hname⟩ := separates_iff.mp hd
  rw [List.takeWhile_append]
  split
  · next hall =>
    rw [List.takeWhile_cons_of_neg (by simp [hname]), List.append_nil]
    exact ((List.takeWhile_prefix isNameChar).eq_of_length hall).symm
  · rfl

/-- Texts divided by a character that separates them. -/
theorem Refers.append (h : Refers known before text) (hd : separates (some d) = true)
    (hrest : Refers known (some d) rest) : Refers known before (text ++ d :: rest) := by
  have hdollar : d ≠ '$' := (separates_iff.mp hd).1
  induction text generalizing before with
  | nil => exact ⟨fun hc => absurd hc hdollar, hrest⟩
  | cons c cs ih =>
    refine ⟨fun hc => ⟨(h.1 hc).1, ?_⟩, ih h.2⟩
    rw [List.append_eq, takeWhile_append_separates hd]
    exact (h.1 hc).2

/-- A text without references. -/
theorem refers_none_iff : Refers (fun _ => False) before cs ↔ '$' ∉ cs := by
  induction cs generalizing before with
  | nil => simp [Refers]
  | cons c cs ih =>
    rw [Refers, ih, List.mem_cons]
    constructor
    · rintro ⟨hc, hcs⟩ (h | h)
      · exact (hc h.symm).2
      · exact hcs h
    · intro h
      exact ⟨fun hc => absurd (Or.inl hc.symm) h, fun hmem => h (Or.inr hmem)⟩

/-! ### Replacing names that begin with `$` -/

/-- A replacement passes over a character that is not `$`. -/
theorem replaceAll_cons_of_ne (hn : name.head? = some '$') (hc : c ≠ '$') :
    replaceAll name text (c :: cs) = c :: replaceAll name text cs := by
  refine replaceAll_cons_of_not_starts fun hprefix => hc ?_
  cases name with
  | nil => cases hn
  | cons n w => exact (List.cons_prefix_cons.mp hprefix).1.symm.trans (Option.some.inj hn)

/-- A replacement passes over a text without `$`. -/
theorem replaceAll_append_of_not_mem (hn : name.head? = some '$') (h : '$' ∉ cs) :
    replaceAll name text (cs ++ rest) = cs ++ replaceAll name text rest := by
  induction cs with
  | nil => rfl
  | cons c cs ih =>
    have hc : c ≠ '$' := fun hc => h (hc ▸ List.mem_cons_self)
    have hcs : '$' ∉ cs := fun hmem => h (List.mem_cons_of_mem c hmem)
    rw [List.cons_append, replaceAll_cons_of_ne hn hc, ih hcs]
    rfl

theorem replaceAll_of_not_mem (hn : name.head? = some '$') (h : '$' ∉ cs) :
    replaceAll name text cs = cs := by
  have hall : replaceAll name text (cs ++ []) = cs ++ [] := replaceAll_append_of_not_mem hn h
  rwa [List.append_nil] at hall

/-- A name does not go on behind a character that it does not have. -/
theorem prefix_of_not_mem {front : List Char} (hd : d ∉ name) (h : name <+: front ++ d :: rest) :
    name <+: front := by
  rcases List.prefix_or_prefix_of_prefix h (List.prefix_append front _) with h' | ⟨more, rfl⟩
  · exact h'
  · cases more with
    | nil => exact ⟨[], by simp⟩
    | cons e more =>
      obtain ⟨rfl, -⟩ := List.cons_prefix_cons.mp ((List.prefix_append_right_inj front).mp h)
      exact absurd (List.mem_append_right front List.mem_cons_self) hd

/-- On the two sides of a character that it does not have, a name is replaced as if the other side
were not there. -/
theorem replaceAll_append_cons (hne : name ≠ []) (hd : d ∉ name) (text front rest : List Char) :
    replaceAll name text (front ++ d :: rest) =
      replaceAll name text front ++ d :: replaceAll name text rest := by
  -- by the length of the left side, since an occurrence of the name is passed over in one go
  induction hlen : front.length using Nat.strongRecOn generalizing front with
  | ind k ih =>
    subst hlen
    cases front with
    | nil =>
      refine replaceAll_cons_of_not_starts fun hprefix => ?_
      have hnil : name <+: [] := prefix_of_not_mem hd hprefix
      exact hne (List.prefix_nil.mp hnil)
    | cons c cs =>
      by_cases hocc : name <+: c :: cs
      · obtain ⟨more, hmore⟩ := hocc
        have hshort : more.length < (c :: cs).length := by
          have hpos := List.length_pos_iff.mpr hne
          rw [← hmore, List.length_append]
          omega
        rw [← hmore, List.append_assoc, replaceAll_append_left hne,
          replaceAll_append_left hne, ih _ hshort _ rfl, List.append_assoc]
      · have hocc' : ¬ name <+: c :: (cs ++ d :: rest) := fun h => hocc (prefix_of_not_mem hd h)
        rw [List.cons_append, replaceAll_cons_of_not_starts hocc',
          replaceAll_cons_of_not_starts hocc, ih _ (Nat.lt_succ_self _) _ rfl]
        rfl

/-! ### Occurrences of names -/

/-- An occurrence of a name begins with `$` and goes on within the name characters there. -/
theorem IsVariable.prefix_cons (hn : IsVariable name) (h : name <+: c :: cs) :
    c = '$' ∧ name <+: '$' :: cs.takeWhile isNameChar := by
  obtain ⟨hhead, -, hall⟩ := hn
  cases name with
  | nil => exact absurd hhead (by simp)
  | cons n w =>
    obtain rfl : n = '$' := Option.some.inj hhead
    obtain ⟨hc, hw⟩ := List.cons_prefix_cons.mp h
    obtain ⟨rest, rfl⟩ := hw
    refine ⟨hc.symm, List.cons_prefix_cons.mpr ⟨rfl, ?_⟩⟩
    have hrun : (w ++ rest).takeWhile isNameChar = w ++ rest.takeWhile isNameChar :=
      List.takeWhile_append_of_pos (List.all_eq_true.mp hall)
    exact hrun ▸ List.prefix_append w _

theorem IsVariable.ne_nil (hn : IsVariable name) : name ≠ [] := by
  rintro rfl
  exact absurd hn.1 (by simp)

/-- A character that separates references is in no name. -/
theorem IsVariable.not_mem (hn : IsVariable name) (hd : separates (some d) = true) :
    d ∉ name := by
  obtain ⟨hhead, -, hall⟩ := hn
  obtain ⟨hdollar, hname⟩ := separates_iff.mp hd
  cases name with
  | nil => exact List.not_mem_nil
  | cons n w =>
    intro hmem
    rcases List.mem_cons.mp hmem with rfl | hmem
    · exact hdollar (Option.some.inj hhead)
    · rw [List.all_eq_true.mp hall d hmem] at hname
      exact Bool.noConfusion hname

/-- Behind a character where no reference begins, a replacement leaves the name characters
that come next. -/
theorem Refers.takeWhile_replaceAll (hn : IsVariable name) (h : Refers known before cs)
    (hb : separates before = false) :
    (replaceAll name text cs).takeWhile isNameChar = cs.takeWhile isNameChar := by
  induction cs generalizing before with
  | nil => rfl
  | cons c cs ih =>
    have hc : c ≠ '$' := by
      intro hc
      rw [(h.1 hc).1] at hb
      exact Bool.noConfusion hb
    rw [replaceAll_cons_of_ne hn.1 hc]
    by_cases hname : isNameChar c = true
    · rw [List.takeWhile_cons_of_pos hname, List.takeWhile_cons_of_pos hname,
        ih h.2 (not_separates_of_isNameChar hname)]
    · rw [List.takeWhile_cons_of_neg hname, List.takeWhile_cons_of_neg hname]

/-! ### One replacement -/

/-- What a text refers to behind the name characters that it begins with. -/
theorem Refers.dropWhile (h : Refers known before cs) (hb : separates before = false) :
    cs.dropWhile isNameChar = [] ∨ ∃ d rest, cs.dropWhile isNameChar = d :: rest ∧
      separates (some d) = true ∧ Refers known (some d) rest := by
  induction cs generalizing before with
  | nil => exact Or.inl rfl
  | cons c cs ih =>
    by_cases hname : isNameChar c = true
    · rw [List.dropWhile_cons_of_pos hname]
      exact ih h.2 (not_separates_of_isNameChar hname)
    · rw [List.dropWhile_cons_of_neg hname]
      have hc : c ≠ '$' := by
        intro hc
        rw [(h.1 hc).1] at hb
        exact Bool.noConfusion hb
      exact Or.inr ⟨c, cs, rfl, separates_iff.mpr ⟨hc, by simpa using hname⟩, h.2⟩

/-- **One replacement**: a text that stands for a name takes the place of every reference to
it, and all other references stay.  The text is only asked about when the name can occur. -/
theorem Refers.replace (hk : Apart known') (hname : known' name)
    (hsub : ∀ w, known w → known' w) {put : List Char → Prop}
    (htext : known name → Refers put none text) (h : Refers known before cs) :
    Refers (fun w => (known w ∧ w ≠ name) ∨ put w) before (replaceAll name text cs) := by
  have hn := hk.isVariable name hname
  induction hlen : cs.length using Nat.strongRecOn generalizing before cs with
  | ind n ih =>
    subst hlen
    cases cs with
    | nil => trivial
    | cons c cs =>
      by_cases hocc : name <+: c :: cs
      · obtain ⟨rfl, hrun⟩ := hn.prefix_cons hocc
        obtain ⟨hsep, hknown⟩ := h.1 rfl
        -- the occurrence is the whole reference, for no name begins another
        have heq : name = '$' :: cs.takeWhile isNameChar :=
          hk.eq_of_prefix _ _ hname (hsub _ hknown) hrun
        have hsplit : '$' :: cs = name ++ cs.dropWhile isNameChar := by
          rw [heq, List.cons_append, List.takeWhile_append_dropWhile]
        have hput : Refers (fun w => (known w ∧ w ≠ name) ∨ put w) none text :=
          (htext (heq ▸ hknown)).mono fun w hw => Or.inr hw
        rw [hsplit, replaceAll_append_left hn.ne_nil]
        rcases h.2.dropWhile (by decide) with hend | ⟨d, rest, hd, hsepd, hrest⟩
        · rw [hend]
          exact (List.append_nil text).symm ▸ hput.behind hsep
        · have hshort : rest.length < ('$' :: cs).length := by
            have hle := (List.dropWhile_sublist (l := cs) isNameChar).length_le
            rw [hd, List.length_cons] at hle
            rw [List.length_cons]
            omega
          rw [hd, replaceAll_cons_of_ne hn.1 (separates_iff.mp hsepd).1]
          exact (hput.behind hsep).append hsepd (ih _ hshort hrest rfl)
      · -- the character stays, and so does the name behind it if it is a `$`
        rw [replaceAll_cons_of_not_starts hocc]
        refine ⟨fun hc => ⟨(h.1 hc).1, Or.inl ?_⟩, ih _ (Nat.lt_succ_self _) h.2 rfl⟩
        subst hc
        rw [h.2.takeWhile_replaceAll hn (by decide)]
        refine ⟨(h.1 rfl).2, ?_⟩
        rintro rfl
        exact hocc (List.cons_prefix_cons.mpr ⟨rfl, List.takeWhile_prefix isNameChar⟩)

/-! ### Replacements in turn -/

namespace Substitution

/-- All replacements: what a text refers to afterwards is what it referred to before and
has no value, or what the values refer to. -/
theorem refers_applyChars (hk : Apart known') {put : List Char → Prop}
    (hput : ∀ w, put w → known' w) {σ : Substitution} (hσ : ∀ r ∈ σ, known' r.name)
    (htext : ∀ r ∈ σ, known r.name ∨ put r.name → Refers put none r.text)
    (hsub : ∀ w, known w → known' w) (h : Refers known before cs) :
    Refers (fun w => (known w ∧ ∀ r ∈ σ, w ≠ r.name) ∨ put w) before (σ.applyChars cs) := by
  -- after one replacement the text refers to what is left of `known`, or to `put`
  induction σ generalizing known cs with
  | nil => exact h.mono fun w hw => Or.inl ⟨hw, nofun⟩
  | cons r σ ih =>
    have hr := List.mem_cons_self (a := r) (l := σ)
    have hfirst := h.replace hk (hσ r hr) hsub fun hname => htext r hr (Or.inl hname)
    have hrest := ih (fun s hs => hσ s (List.mem_cons_of_mem r hs)) (fun s hs hname => ?_)
      (fun w hw => ?_) hfirst
    · refine hrest.mono fun w hw => ?_
      rcases hw with ⟨⟨hw, hne⟩ | hw, hall⟩ | hw
      · refine Or.inl ⟨hw, fun s hs => ?_⟩
        rcases List.mem_cons.mp hs with rfl | hs
        · exact hne
        · exact hall s hs
      · exact Or.inr hw
      · exact Or.inr hw
    · refine htext s (List.mem_cons_of_mem r hs) ?_
      rcases hname with (⟨hname, -⟩ | hname) | hname
      · exact Or.inl hname
      · exact Or.inr hname
      · exact Or.inr hname
    · rcases hw with ⟨hw, -⟩ | hw
      · exact hsub w hw
      · exact hput w hw

/-- A text that each replacement leaves as it is stays through all of them. -/
theorem applyChars_eq_self {σ : Substitution} (h : ∀ r ∈ σ, replaceAll r.name r.text cs = cs) :
    σ.applyChars cs = cs := by
  unfold applyChars
  induction σ with
  | nil => rfl
  | cons r σ ih =>
    obtain ⟨hr, hσ⟩ := List.forall_mem_cons.mp h
    rw [List.foldl_cons, hr]
    exact ih hσ

theorem applyChars_of_not_mem {σ : Substitution} (hσ : ∀ r ∈ σ, r.name.head? = some '$')
    (h : '$' ∉ cs) : σ.applyChars cs = cs :=
  applyChars_eq_self fun r hr => replaceAll_of_not_mem (hσ r hr) h

end Substitution

end HostRules
