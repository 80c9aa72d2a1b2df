/-
HostRules/Proofs/Redeclared.lean

A variable that is declared anew in terms of itself.  Where `$n/x` is declared as `$n` in a scope
inside, that scope has no `$n` of its own yet, so the declaration leaves the mention; where the
scope is settled, `$n` is the new variable, and the mention is replaced by the very text that it
stands in.  The value from around is hidden both times.

Design.  When nothing else is mentioned, a whole substitution is one replacement
(`Substitution.applyChars_eq_replaceAll`); this is why each name must come only once in it
(`Bindings.nodup_substitution`).  What else the scope does before it is settled is followed action
by action (`Scope.act_beside`).

Main results: the value after settling has its own text in the place of each mention of its name,
and so still mentions it, whatever the scopes around have (`Scope.redeclared_value`); a host block
that goes on from a global variable does not get that variable's value
(`RuleFile.redeclared_value_lost`).
-/
import HostRules.Proofs.Lookup
import HostRules.Regex.Standard
import HostRules.Statement.Parse

namespace HostRules

variable {name text cs w : List Char}

/-! ### One replacement -/

/-- The text that is put in stands wherever the name did. -/
theorem infix_replaceAll (hne : name ≠ []) (h : name <:+: cs) :
    text <:+: replaceAll name text cs := by
  induction cs with
  | nil => exact absurd (List.infix_nil.mp h) hne
  | cons c cs ih =>
    by_cases hprefix : name <+: c :: cs
    · obtain ⟨rest, hrest⟩ := hprefix
      rw [← hrest, replaceAll_append_left hne]
      exact (List.prefix_append text _).isInfix
    · rw [replaceAll_cons_of_not_starts hprefix]
      have hrest : name <:+: cs := (List.infix_cons_iff.mp h).resolve_left hprefix
      exact (ih hrest).trans (List.suffix_cons c _).isInfix

/-- A text with a name replaced wherever it occurs. -/
def replaceName (name put text : String) : String :=
  String.ofList (replaceAll name.toList put.toList text.toList)

theorem mem_intersperse {α : Type} {a sep : α} {l : List α} (h : a ∈ l) :
    a ∈ l.intersperse sep := by
  induction l with
  | nil => exact absurd h List.not_mem_nil
  | cons b l ih =>
    cases l with
    | nil => exact h
    | cons c l =>
      rw [List.intersperse_cons_cons]
      rcases List.mem_cons.mp h with rfl | h
      · exact List.mem_cons_self
      · exact List.mem_cons_of_mem b (List.mem_cons_of_mem sep (ih h))

theorem mentions_singleton {n text : String} :
    Mentions [n] text ↔ n ≠ "" ∧ n.toList <:+: text.toList := by
  simp [Mentions]

/-- An item of a value is a part of the text that stands for it. -/
theorem Value.infix_text {v : Value String} {item : String} (h : item ∈ v.items) :
    item.toList <:+: v.text.toList := by
  cases v with
  | scalar only =>
    obtain rfl : item = only := List.mem_singleton.mp h
    exact List.infix_rfl
  | list items =>
    show item.toList <:+: (String.intercalate " " items).toList
    rw [String.toList_intercalate]
    exact List.infix_of_mem_flatten (mem_intersperse (List.mem_map_of_mem h))

/-! ### Substitutions as one replacement -/

theorem nodup_longestFirst {refs : List Reference} (h : (refs.map (·.name)).Nodup) :
    ((longestFirst refs).map (·.name)).Nodup := by
  rw [List.Nodup, List.pairwise_map] at h ⊢
  refine List.pairwise_flatMap.mpr ⟨fun n _ => (h.filter _).filter _, ?_⟩
  -- names of different lengths differ
  refine (pairwise_nameLengths _).imp ?_
  intro m n hmn r hr s hs heq
  have hm : byteLength r.name = m := eq_of_beq (List.mem_filter.mp hr).2
  have hn : byteLength s.name = n := eq_of_beq (List.mem_filter.mp hs).2
  rw [heq] at hm
  omega

theorem Bindings.nodup_substitution (bindings : Bindings) :
    (bindings.substitution.map (·.name)).Nodup := by
  apply nodup_longestFirst
  rw [List.map_map, List.Nodup, List.pairwise_map]
  refine bindings.ascending.imp ?_
  intro e f hlt heq
  have hnames : e.1 = f.1 := String.toList_injective heq
  exact String.lt_irrefl _ (hnames ▸ hlt)

/-- When no other name occurs in a text, before or after, all replacements are that of one name. -/
theorem Substitution.applyChars_eq_replaceAll {σ : Substitution} (hmem : ⟨name, w⟩ ∈ σ)
    (hnodup : (σ.map (·.name)).Nodup)
    (hothers : ∀ r ∈ σ, r.name ≠ name →
      ¬ r.name <:+: cs ∧ ¬ r.name <:+: replaceAll name w cs) :
    σ.applyChars cs = replaceAll name w cs := by
  obtain ⟨before, after, rfl⟩ := List.append_of_mem hmem
  rw [List.map_append, List.map_cons, List.nodup_append, List.nodup_cons] at hnodup
  obtain ⟨-, ⟨hafter, -⟩, hbefore⟩ := hnodup
  -- the replacements before the name's own find the text as it was, those behind it the new one
  have hfirst : applyChars before cs = cs := by
    refine applyChars_eq_self fun r hr => replaceAll_of_not_infix ?_
    have hne : r.name ≠ name := hbefore _ (List.mem_map_of_mem hr) _ List.mem_cons_self
    exact (hothers r (List.mem_append_left _ hr) hne).1
  have hlast : applyChars after (replaceAll name w cs) = replaceAll name w cs := by
    refine applyChars_eq_self fun r hr => replaceAll_of_not_infix ?_
    have hne : r.name ≠ name := by
      intro heq
      have hmem' := List.mem_map_of_mem (f := (·.name)) hr
      exact hafter (heq ▸ hmem')
    exact (hothers r (List.mem_append_right _ (List.mem_cons_of_mem _ hr)) hne).2
  show (before ++ ⟨name, w⟩ :: after).foldl _ cs = _
  rw [List.foldl_append, List.foldl_cons]
  show applyChars after (replaceAll name w (applyChars before cs)) = _
  rw [hfirst, hlast]

/-! ### A scope that declares a name once -/

/-- An action of a scope on its way to be settled that leaves a name alone. -/
def ScopeAction.Beside (name : String) : ScopeAction → Prop
  | .declare m _ => m ≠ name
  | .addDirective _ => True
  | .settle | .enter => False

namespace Scope

variable {s around : Scope} {n : String} {v : Value String} {a : ScopeAction}
variable {before later actions : List ScopeAction}

theorem act_beside (h : a.Beside n) :
    (s.act a).own.bindings.get? n = s.own.bindings.get? n ∧
      ∀ m ∈ s.own.bindings.names, m ∈ (s.act a).own.bindings.names := by
  cases a with
  | declare m u =>
    refine ⟨by rw [get?_act_declare, if_neg (Ne.symm h)], fun key hkey => ?_⟩
    rw [Table.mem_names_iff] at hkey ⊢
    rw [get?_act_declare]
    split
    · rfl
    · exact hkey
  | addDirective d => exact ⟨rfl, fun _ hm => hm⟩
  | settle => exact h.elim
  | enter => exact h.elim

theorem run_beside (h : ∀ a ∈ actions, a.Beside n) :
    (s.run actions).own.bindings.get? n = s.own.bindings.get? n ∧
      ∀ m ∈ s.own.bindings.names, m ∈ (s.run actions).own.bindings.names := by
  induction actions generalizing s with
  | nil => exact ⟨rfl, fun _ hm => hm⟩
  | cons a later ih =>
    obtain ⟨ha, hlater⟩ := List.forall_mem_cons.mp h
    obtain ⟨hget, hnames⟩ := act_beside (s := s) ha
    obtain ⟨hget', hnames'⟩ := ih (s := s.act a) hlater
    exact ⟨hget'.trans hget, fun m hm => hnames' m (hnames m hm)⟩

/-- A value that mentions no other visible name is stored as it is, since the scope has no variable
of the declared name before. -/
theorem get?_declared_once (hbefore : ∀ a ∈ before, a.Beside n) (hlater : ∀ a ∈ later, a.Beside n)
    {child : Scope} (hchild : child = around.child.run (before ++ .declare n v :: later))
    (hothers : ∀ m ∈ (visibleBindings child.layers).names, m ≠ n → ∀ item ∈ v.items,
      ¬ Mentions [m] item) :
    child.own.bindings.get? n = some v := by
  obtain ⟨hfree, -⟩ := run_beside (s := around.child) hbefore
  replace hfree : (around.child.run before).own.bindings.get? n = none := hfree
  rw [run_append, run_cons] at hchild
  -- from here on `s` is the scope right before the declaration
  generalize around.child.run before = s at hchild hfree
  obtain ⟨hkept, hnames⟩ := run_beside (s := s.act (.declare n v)) hlater
  rw [← hchild] at hkept hnames
  rw [hkept, get?_act_declare, if_pos rfl]
  refine congrArg some (Bindings.applyValue_eq_self fun item hitem ⟨m, hm, hmention⟩ => ?_)
  have hmn : m ≠ n := by
    rintro rfl
    rw [Table.mem_names_iff, hfree] at hm
    cases hm
  have hdeclared : m ∈ (s.act (.declare n v)).own.bindings.names := by
    rw [Table.mem_names_iff] at hm ⊢
    rwa [get?_act_declare, if_neg hmn]
  have hvisible : m ∈ (visibleBindings child.layers).names :=
    mem_names_visibleBindings.mpr ⟨child.own, List.mem_cons_self, hnames m hdeclared⟩
  exact hothers m hvisible hmn item hitem ⟨m, List.mem_singleton.mpr rfl, hmention⟩

/-- **A variable in terms of itself.**  A scope inside declares a name once, with a value that
mentions no other visible name, and nor does what is made of it.  When the scope is settled, the
name's value has its own text as declared in the place of every mention of the name, whatever the
scopes around have for it.  So an item that mentions the name still does. -/
theorem redeclared_value (hname : n ≠ "") (hbefore : ∀ a ∈ before, a.Beside n)
    (hlater : ∀ a ∈ later, a.Beside n) {child : Scope}
    (hchild : child = around.child.run (before ++ .declare n v :: later))
    (hothers : ∀ m ∈ (visibleBindings child.layers).names, m ≠ n → ∀ item ∈ v.items,
      ¬ Mentions [m] item ∧ ¬ Mentions [m] (replaceName n v.text item)) :
    child.settle.own.bindings.get? n = some (v.map (replaceName n v.text)) ∧
      ∀ item ∈ v.items, Mentions [n] item → Mentions [n] (replaceName n v.text item) := by
  have hne : n.toList ≠ [] := fun h => hname (String.toList_injective h)
  have hown : child.own.bindings.get? n = some v :=
    get?_declared_once hbefore hlater hchild
      fun m hm hmn item hitem => (hothers m hm hmn item hitem).1
  have hlookup : lookupVariable n child.layers = some v := by
    -- the new variable hides what the scopes around have
    show (child.own.bindings.get? n).or _ = some v
    rw [hown, Option.some_or]
  constructor
  · rw [get?_settle, hlookup, Option.map_some]
    refine congrArg some (Value.map_congr fun item hitem => ?_)
    refine congrArg String.ofList (Substitution.applyChars_eq_replaceAll ?_
      (Bindings.nodup_substitution _) fun r hr hrn => ?_)
    · exact Bindings.mem_substitution.mpr
        ⟨n, v, (get?_visibleBindings n child.layers).trans hlookup, rfl, hne⟩
    · obtain ⟨m, u, hget, rfl, hmne⟩ := Bindings.mem_substitution.mp hr
      have hm := Table.mem_names_iff.mpr (Option.isSome_of_eq_some hget)
      have hmn : m ≠ n := fun h => hrn (congrArg String.toList h)
      replace hmne : m ≠ "" := fun h => hmne (congrArg String.toList h)
      simpa [mentions_singleton, replaceName, hmne] using hothers m hm hmn item hitem
  · intro item hitem hmention
    rw [mentions_singleton] at hmention ⊢
    obtain ⟨-, hocc⟩ := hmention
    rw [replaceName, String.toList_ofList]
    exact ⟨hname, (hocc.trans (Value.infix_text hitem)).trans (infix_replaceAll hne hocc)⟩

/-- A list goes on from `$n`, which is `p` around; its first item gets the whole list put in. -/
theorem redeclared_value_list :
    let around := ({} : Scope).run
      [.declare "$n" (.scalar "p"), .declare "$m" (.scalar "q"), .settle]
    let before : List ScopeAction := [.addDirective ⟨"log", ["$n"]⟩]
    let later : List ScopeAction := [.declare "$o" (.scalar "r")]
    let child := around.child.run (before ++ .declare "$n" (.list ["$n/x", "y"]) :: later)
    (around.own.bindings.get? "$n" = some (.scalar "p") ∧
      (∀ a ∈ before, a.Beside "$n") ∧ ∀ a ∈ later, a.Beside "$n") ∧
    child.settle.own.bindings.get? "$n" = some (.list ["$n/x y/x", "y"]) ∧
      Mentions ["$n"] "$n/x y/x" := by
  intro around before later child
  have hbefore : ∀ a ∈ before, a.Beside "$n" := List.forall_mem_singleton.mpr trivial
  have hlater : ∀ a ∈ later, a.Beside "$n" :=
    List.forall_mem_singleton.mpr (show "$o" ≠ "$n" by decide)
  have hnames : (visibleBindings child.layers).names = ["$m", "$n", "$o"] := by decide +kernel
  have hothers : ∀ m ∈ (visibleBindings child.layers).names, m ≠ "$n" →
      ∀ item ∈ (Value.list ["$n/x", "y"]).items, ¬ Mentions [m] item ∧
        ¬ Mentions [m] (replaceName "$n" (Value.list ["$n/x", "y"]).text item) := by
    rw [hnames]
    decide +kernel
  obtain ⟨hvalue, hmentions⟩ := redeclared_value (by decide) hbefore hlater rfl hothers
  refine ⟨⟨by decide +kernel, hbefore, hlater⟩, ?_, ?_⟩
  · exact hvalue.trans (by decide +kernel)
  · exact hmentions "$n/x" List.mem_cons_self (by decide +kernel)

end Scope

namespace RuleFile

/-- A host block goes on from a global variable. -/
def goingOnSample : String := "set $n p\ndomain d.com \x7b\nset $n $n/x\n\x7d"

/-- The host block does not get `p/x`, and its variable still mentions itself. -/
theorem redeclared_value_lost : ∃ f, parse goingOnSample = .ok f ∧
    f.scope.own.bindings.get? "$n" = some (.scalar "p") ∧ ∃ block ∈ domainBlocks f.body,
      declarations block.2 = [("$n", .scalar "$n/x")] ∧
      (f.domainScope block.2).own.bindings.get? "$n" = some (.scalar "$n/x/x") :=
  exists_parse (by decide +kernel)

end RuleFile

end HostRules
