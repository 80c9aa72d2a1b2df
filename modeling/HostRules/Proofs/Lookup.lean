/-
HostRules/Proofs/Lookup.lean

Looking a variable up in a chain of scopes.  One way goes outwards to the first scope that has
the name (`lookupVariable`), the other one lays each scope over those around it
(`visibleBindings`); a settled scope has the variables of the latter.

Design.  Settling puts the visible values into each other.  It changes none of them when no value
contains a name (`Scope.Inert`), and then it cannot be told from the outside either: what is
visible stays (`Inert.lookupVariable_settle`).  So the value that a declaration has stored stays
visible through all that follows, as long as the name is not declared again and every settling is
inert (`lookupVariable_run`); this is an induction over the history with one lemma for each step
(`lookupVariable_act`).

Main results: the two ways agree, a settled scope has the names of the whole chain, and when
settling is inert it has the stored values (`Scope.lookup_and_settle`).  That the last settling is
inert is not enough for the latter: a scope around may have been settled before, and then its
value is not the stored one any more (`Scope.stored_value_lost`).
-/
import HostRules.Proofs.Chains
import HostRules.Proofs.Settling

namespace HostRules

/-! ### Texts without names -/

theorem replaceAll_of_not_infix {name text cs : List Char} (h : ¬ name <:+: cs) :
    replaceAll name text cs = cs := by
  induction cs with
  | nil => rfl
  | cons c cs ih =>
    have hprefix : ¬ name <+: c :: cs := fun hp => h hp.isInfix
    have hrest : ¬ name <:+: cs := fun hi => h (hi.trans (List.suffix_cons c cs).isInfix)
    rw [replaceAll_cons_of_not_starts hprefix, ih hrest]

/-- A text contains one of some names. -/
def Mentions (names : List String) (text : String) : Prop :=
  ∃ n ∈ names, n ≠ "" ∧ n.toList <:+: text.toList

instance (names : List String) (text : String) : Decidable (Mentions names text) :=
  inferInstanceAs (Decidable (∃ n ∈ names, n ≠ "" ∧ n.toList <:+: text.toList))

/-- A value that mentions none of some variables is left by their values. -/
theorem Bindings.applyValue_eq_self {bindings : Bindings} {v : Value String}
    (h : ∀ text ∈ v.items, ¬ Mentions bindings.names text) :
    bindings.substitution.applyValue v = v := by
  refine Value.map_eq_self fun text htext => ?_
  have hchars : bindings.substitution.applyChars text.toList = text.toList := by
    refine Substitution.applyChars_eq_self fun r hr => replaceAll_of_not_infix fun hi => ?_
    obtain ⟨n, u, hget, rfl, hne⟩ := mem_substitution.mp hr
    have hn : n ≠ "" := fun hn => hne (hn ▸ rfl)
    exact h text htext ⟨n, Table.mem_names_iff.mpr (Option.isSome_of_eq_some hget), hn, hi⟩
  rw [Substitution.apply, hchars, String.ofList_toList]

/-! ### Settling without effect -/

/-- The innermost layer that has a name decides. -/
theorem lookupVariable_eq_findSome? (name : String) (layers : List Layer) :
    lookupVariable name layers = layers.findSome? (·.bindings.get? name) := by
  induction layers with
  | nil => rfl
  | cons l outer ih =>
    rw [lookupVariable, List.findSome?_cons, ih]
    cases l.bindings.get? name <;> rfl

theorem mem_names_visibleBindings {name : String} {layers : List Layer} :
    name ∈ (visibleBindings layers).names ↔ ∃ l ∈ layers, name ∈ l.bindings.names := by
  rw [Table.mem_names_iff, get?_visibleBindings, lookupVariable_eq_findSome?,
    List.findSome?_isSome_iff]
  simp only [Table.mem_names_iff]

namespace Scope

variable {s : Scope} {name : String}

/-- No visible value mentions a visible variable. -/
def Inert (s : Scope) : Prop :=
  ∀ e ∈ (visibleBindings s.layers).entries, ∀ text ∈ e.2.items,
    ¬ Mentions (visibleBindings s.layers).names text

instance (s : Scope) : Decidable s.Inert :=
  inferInstanceAs (Decidable (∀ e ∈ (visibleBindings s.layers).entries, ∀ text ∈ e.2.items,
    ¬ Mentions (visibleBindings s.layers).names text))

theorem Inert.bindings_settle (h : s.Inert) : s.settle.own.bindings = visibleBindings s.layers := by
  apply Table.ext_get?
  intro name
  rw [get?_settle, ← get?_visibleBindings]
  cases hget : (visibleBindings s.layers).get? name with
  | none => rfl
  | some v =>
    exact congrArg some (Bindings.applyValue_eq_self (h _ (Table.get?_eq_some_iff.mp hget)))

/-- An inert settling leaves what is visible. -/
theorem Inert.lookupVariable_settle (h : s.Inert) (name : String) :
    lookupVariable name s.settle.layers = lookupVariable name s.layers := by
  -- the scope now has a copy of all that is visible around it
  show (s.settle.own.bindings.get? name).or (lookupVariable name s.enclosing) = _
  rw [h.bindings_settle, get?_visibleBindings]
  show ((s.own.bindings.get? name).or (lookupVariable name s.enclosing)).or _ = _
  rw [Option.or_assoc, Option.or_self]
  rfl

/-- A settled scope has the names of the whole chain. -/
theorem mem_names_settle :
    name ∈ s.settle.own.bindings.names ↔ ∃ l ∈ s.layers, name ∈ l.bindings.names := by
  rw [← mem_names_visibleBindings, Table.mem_names_iff, get?_settle, Option.isSome_map,
    ← get?_visibleBindings, Table.mem_names_iff]

/-! ### What a declaration has stored -/

/-- Each settling of a scope among some actions is inert. -/
def SettlesInertly : Scope → List ScopeAction → Prop
  | _, [] => True
  | s, a :: later => (a = .settle → s.Inert) ∧ (s.act a).SettlesInertly later

/-- One action leaves a visible value, unless it declares the name or is a settling with effect. -/
theorem lookupVariable_act {a : ScopeAction} (hname : ∀ u, a ≠ .declare name u)
    (hinert : a = .settle → s.Inert) :
    lookupVariable name (s.act a).layers = lookupVariable name s.layers := by
  cases a with
  | declare m u =>
    have hne : name ≠ m := fun h => hname u (h ▸ rfl)
    show ((s.act (.declare m u)).own.bindings.get? name).or (lookupVariable name s.enclosing) = _
    rw [get?_act_declare, if_neg hne]
    rfl
  | addDirective d => rfl
  | settle => exact (hinert rfl).lookupVariable_settle name
  | enter => exact Option.none_or

/-- A visible value stays visible while its name is not declared and all settling is inert. -/
theorem lookupVariable_run {later : List ScopeAction} (hname : ∀ u, .declare name u ∉ later)
    (hinert : s.SettlesInertly later) :
    lookupVariable name (s.run later).layers = lookupVariable name s.layers := by
  induction later generalizing s with
  | nil => rfl
  | cons a later ih =>
    obtain ⟨ha, hlater⟩ := hinert
    have hfirst : ∀ u, a ≠ .declare name u := fun u h => hname u (h ▸ List.mem_cons_self)
    rw [run_cons, ih (fun u h => hname u (List.mem_cons_of_mem a h)) hlater]
    exact lookupVariable_act hfirst ha

/-- **Lookup and settling have the same scoping.**  Looking a name up outwards gives what it has
when the scopes are laid over one another, and this is its value in the innermost scope that has
it.  A settled scope has the names of all scopes of the chain.  When no visible value mentions a
visible variable, settling leaves all values; and if this was so each time a scope has been
settled since the last declaration of a name, the name has the value which that declaration has
stored. -/
theorem lookup_and_settle (s : Scope) :
    (∀ name, lookupVariable name s.layers = (visibleBindings s.layers).get? name ∧
      lookupVariable name s.layers = s.layers.findSome? (·.bindings.get? name)) ∧
    (∀ name, name ∈ s.settle.own.bindings.names ↔ ∃ l ∈ s.layers, name ∈ l.bindings.names) ∧
    (s.Inert → s.settle.own.bindings = visibleBindings s.layers ∧
      ∀ (before : Scope) (name : String) (v : Value String) (later : List ScopeAction),
        s = (before.act (.declare name v)).run later →
        (∀ u, .declare name u ∉ later) → (before.act (.declare name v)).SettlesInertly later →
        s.settle.own.bindings.get? name =
          some (before.own.bindings.substitution.applyValue v)) := by
  refine ⟨fun name => ⟨(get?_visibleBindings name _).symm, lookupVariable_eq_findSome? name _⟩,
    fun name => mem_names_settle, fun hinert => ⟨hinert.bindings_settle, ?_⟩⟩
  rintro before name v later rfl hname hlater
  rw [hinert.bindings_settle, get?_visibleBindings, lookupVariable_run hname hlater]
  -- right behind the declaration the name has the stored value, in the scope itself
  show ((before.act (.declare name v)).own.bindings.get? name).or _ = _
  rw [get?_act_declare, if_pos rfl, Option.some_or]

/-- A list is stored with the value of `$b`, and two scopes are settled before the last one. -/
theorem lookup_and_settle_nested :
    let before := ({} : Scope).run [.declare "$b" (.scalar "2")]
    let later : List ScopeAction := [.settle, .enter, .declare "$c" (.scalar "3"), .settle, .enter]
    let s := (before.act (.declare "$a" (.list ["1", "$b"]))).run later
    (s.Inert ∧ (before.act (.declare "$a" (.list ["1", "$b"]))).SettlesInertly later) ∧
      s.settle.own.bindings.names = ["$a", "$b", "$c"] ∧
      s.settle.own.bindings.get? "$a" = some (.list ["1", "2"]) := by
  intro before later s
  have hinert : s.Inert := by decide +kernel
  have hlater : (before.act (.declare "$a" (.list ["1", "$b"]))).SettlesInertly later :=
    ⟨fun _ => by decide +kernel, nofun, nofun, fun _ => by decide +kernel, nofun, trivial⟩
  obtain ⟨-, -, hsettle⟩ := lookup_and_settle s
  obtain ⟨hbindings, hstored⟩ := hsettle hinert
  refine ⟨⟨hinert, hlater⟩, ?_, hstored before "$a" (.list ["1", "$b"]) later rfl ?_ hlater⟩
  · rw [hbindings]
    decide +kernel
  · intro u hu
    simp [later] at hu

/-- The last declaration of `$a` has stored `$b`.  The settling of its scope puts `1` there, and so
a scope inside has `1`, though its own settling is inert. -/
theorem stored_value_lost :
    let later : List ScopeAction := [.declare "$b" (.scalar "1"), .settle, .enter]
    let s := (({} : Scope).act (.declare "$a" (.scalar "$b"))).run later
    s.Inert ∧ ({} : Scope).own.bindings.substitution.applyValue (.scalar "$b") = .scalar "$b" ∧
      s.settle.own.bindings.get? "$a" = some (.scalar "1") := by
  decide +kernel

end Scope

end HostRules
