/-
HostRules/Proofs/Settling.lean

Settled scopes have closed values.  A block is judged by the names `outer` that the blocks
around it declare: its values may refer to names that it has declared before, and to names of
`outer` that it does not declare itself (`BodyRefers`).

Design.  The values pass through three states.  While a body is read, a value keeps its
references to `outer` and no others (`Layer.Holds`), since those to its own names are replaced
at once.  Settling replaces the references to `outer` by values of the settled blocks around,
which are closed.  Settled layers (`Settled`) are what the next block inside starts from, so
the three levels of a file are three uses of one step (`Scope.settled_layers`).
-/
import HostRules.Proofs.References
import HostRules.Resolve

namespace HostRules

/-! ### Texts that refer to some names -/

/-- A list of names that are `Apart`, in a form that can be computed. -/
structure VariableNames (names : List String) : Prop where
  isVariable : ∀ n ∈ names, IsVariable n.toList
  eq_of_prefix : ∀ m ∈ names, ∀ n ∈ names, m.toList <+: n.toList → m = n

/-- A text whose references are all to some names. -/
structure RefersTo (names : List String) (text : String) : Prop where
  refers : Refers (fun w => String.ofList w ∈ names) none text.toList

instance (names : List String) (text : String) : Decidable (RefersTo names text) :=
  decidable_of_iff _ ⟨RefersTo.mk, RefersTo.refers⟩

/-- A text without references. -/
def Closed (text : String) : Prop := '$' ∉ text.toList

variable {names outer known put : List String} {text : String} {bindings : Bindings}

theorem VariableNames.subset (h : VariableNames names) (hsub : ∀ n ∈ known, n ∈ names) :
    VariableNames known where
  isVariable n hn := h.isVariable n (hsub n hn)
  eq_of_prefix m hm n hn := h.eq_of_prefix m (hsub m hm) n (hsub n hn)

theorem VariableNames.apart (h : VariableNames names) :
    Apart fun w => String.ofList w ∈ names where
  isVariable m hm := by
    have hvar := h.isVariable _ hm
    rwa [String.toList_ofList] at hvar
  eq_of_prefix m n hm hn hmn := by
    have heq := h.eq_of_prefix _ hm _ hn (by rwa [String.toList_ofList, String.toList_ofList])
    exact String.ofList_injective heq

theorem RefersTo.mono (h : RefersTo known text) (hsub : ∀ n ∈ known, n ∈ names) :
    RefersTo names text :=
  ⟨h.refers.mono fun _ hw => hsub _ hw⟩

theorem refersTo_nil_iff : RefersTo [] text ↔ Closed text := by
  have hnone : Refers (fun w => String.ofList w ∈ []) none text.toList ↔ Closed text := by
    simp only [List.not_mem_nil]
    exact refers_none_iff
  exact ⟨fun h => hnone.mp h.refers, fun h => ⟨hnone.mpr h⟩⟩

theorem Closed.refersTo (h : Closed text) : RefersTo names text :=
  (refersTo_nil_iff.mpr h).mono fun _ hn => absurd hn List.not_mem_nil

/-- The items of a list are divided by spaces, which separate references. -/
theorem refersTo_text {v : Value String} (h : ∀ t ∈ v.items, RefersTo names t) :
    RefersTo names v.text := by
  cases v with
  | scalar item => exact h item (List.mem_singleton.mpr rfl)
  | list items =>
    refine ⟨?_⟩
    show Refers _ none (String.intercalate " " items).toList
    rw [String.toList_intercalate]
    -- item by item: the space between two of them ends a reference of the first
    induction items with
    | nil => trivial
    | cons t items ih =>
      have ht := (h t List.mem_cons_self).refers
      have hmore := ih fun t ht => h t (List.mem_cons_of_mem _ ht)
      cases items with
      | nil =>
        rw [List.map_cons, List.map_nil, List.intercalate_singleton]
        exact ht
      | cons u items =>
        rw [List.map_cons, List.map_cons, List.intercalate_cons_cons, List.append_assoc]
        exact ht.append (by decide) (hmore.behind (by decide))

/-! ### Putting values into texts -/

namespace Bindings

theorem mem_substitution {r : Reference} :
    r ∈ bindings.substitution ↔
      ∃ n v, bindings.get? n = some v ∧ r = ⟨n.toList, v.text.toList⟩ ∧ n.toList ≠ [] := by
  unfold substitution
  rw [mem_longestFirst, List.mem_map]
  constructor
  · rintro ⟨⟨⟨n, v⟩, hmem, rfl⟩, hne⟩
    exact ⟨n, v, Table.get?_eq_some_iff.mpr hmem, rfl, hne⟩
  · rintro ⟨n, v, hget, rfl, hne⟩
    exact ⟨⟨(n, v), Table.get?_eq_some_iff.mp hget, rfl⟩, hne⟩

/-- Values put into a text: when all that the text refers to has a value or is in `put`,
and those values that come to be put in refer to `put` alone, so does the text afterwards. -/
theorem refersTo_apply (hn : VariableNames names)
    (hbound : ∀ n v, bindings.get? n = some v → n ∈ names) (hput : ∀ n ∈ put, n ∈ names)
    (hknown : ∀ n ∈ known, n ∈ names)
    (hvalues : ∀ n v, bindings.get? n = some v → n ∈ known ∨ n ∈ put →
      ∀ t ∈ v.items, RefersTo put t)
    (hall : ∀ n ∈ known, bindings.get? n = none → n ∈ put) (h : RefersTo known text) :
    RefersTo put (bindings.substitution.apply text) := by
  have happ : Refers (fun w => (String.ofList w ∈ known ∧
      ∀ r ∈ bindings.substitution, w ≠ r.name) ∨ String.ofList w ∈ put) none
      (bindings.substitution.applyChars text.toList) := by
    refine Substitution.refers_applyChars hn.apart (fun w hw => hput _ hw) ?_ ?_
      (fun w hw => hknown _ hw) h.refers
    · intro r hr
      obtain ⟨n, v, hget, rfl, -⟩ := mem_substitution.mp hr
      show String.ofList n.toList ∈ names
      rw [String.ofList_toList]
      exact hbound n v hget
    · intro r hr hname
      obtain ⟨n, v, hget, rfl, -⟩ := mem_substitution.mp hr
      replace hname : String.ofList n.toList ∈ known ∨ String.ofList n.toList ∈ put := hname
      rw [String.ofList_toList] at hname
      exact (refersTo_text (hvalues n v hget hname)).refers
  refine ⟨?_⟩
  rw [Substitution.apply, String.toList_ofList]
  -- a name that is left from `known` has no value, or it would have been replaced
  refine happ.mono fun w hw => ?_
  rcases hw with ⟨hw, hnone⟩ | hw
  · refine hall _ hw ?_
    cases hget : bindings.get? (String.ofList w) with
    | none => rfl
    | some v =>
      have hmem : (⟨w, v.text.toList⟩ : Reference) ∈ bindings.substitution := by
        refine mem_substitution.mpr ⟨String.ofList w, v, hget, ?_, ?_⟩
        · rw [String.toList_ofList]
        · exact (hn.isVariable _ (hknown _ hw)).ne_nil
      exact absurd rfl (hnone _ hmem)
  · exact hw

theorem apply_of_closed (hn : VariableNames names)
    (hbound : ∀ n v, bindings.get? n = some v → n ∈ names) (h : Closed text) :
    bindings.substitution.apply text = text := by
  have hσ : ∀ r ∈ bindings.substitution, IsVariable r.name := by
    intro r hr
    obtain ⟨n, v, hget, rfl, -⟩ := mem_substitution.mp hr
    exact hn.isVariable n (hbound n v hget)
  rw [Substitution.apply, Substitution.applyChars_of_not_mem (fun r hr => (hσ r hr).1) h,
    String.ofList_toList]

/-- Closed values leave no reference to the names they are the values of. -/
theorem closed_apply (hn : VariableNames names)
    (hbound : ∀ n, (bindings.get? n).isSome = true ↔ n ∈ names)
    (hclosed : ∀ n v, bindings.get? n = some v → ∀ t ∈ v.items, Closed t)
    (h : RefersTo names text) : Closed (bindings.substitution.apply text) := by
  refine refersTo_nil_iff.mp (refersTo_apply hn (fun n v hv => ?_)
    (fun n hmem => absurd hmem List.not_mem_nil) (fun n hmem => hmem)
    (fun n v hv _ t ht => (hclosed n v hv t ht).refersTo) (fun n hmem hnone => ?_) h)
  · exact (hbound n).mp (Option.isSome_of_eq_some hv)
  · exact absurd hnone (Option.isSome_iff_ne_none.mp ((hbound n).mpr hmem))

theorem applyValue_of_closed (hn : VariableNames names)
    (hbound : ∀ n v, bindings.get? n = some v → n ∈ names) {v : Value String}
    (h : ∀ t ∈ v.items, Closed t) : bindings.substitution.applyValue v = v :=
  Value.map_eq_self fun t ht => apply_of_closed hn hbound (h t ht)

end Bindings

/-! ### Values that refer back -/

/-- Values that refer to names before them, or to names of `outer`. -/
def ReferBack (outer : List String) : (before : List String) → List (String × Value String) → Prop
  | _, [] => True
  | before, (name, v) :: more =>
    (∀ text ∈ v.items, RefersTo (before ++ outer) text) ∧ ReferBack outer (before ++ [name]) more

instance decideReferBack (outer : List String) : (before : List String) →
    (ds : List (String × Value String)) → Decidable (ReferBack outer before ds)
  | _, [] => isTrue trivial
  | before, (name, v) :: more =>
    @instDecidableAnd (∀ text ∈ v.items, RefersTo (before ++ outer) text) _ inferInstance
      (decideReferBack outer (before ++ [name]) more)

namespace Layer

/-- A layer while its body is read: it has values for the names `declared`, and these refer
to names of `outer` alone. -/
structure Holds (declared outer : List String) (l : Layer) : Prop where
  bound : ∀ n, (l.bindings.get? n).isSome = true ↔ n ∈ declared
  values : ∀ n v, l.bindings.get? n = some v → ∀ text ∈ v.items, RefersTo outer text

variable {declared : List String} {l : Layer} {name : String} {v : Value String}

theorem Holds.mem (h : l.Holds declared outer) (hv : l.bindings.get? name = some v) :
    name ∈ declared :=
  (h.bound name).mp (Option.isSome_of_eq_some hv)

/-- One declaration keeps the references to outer names and no others. -/
theorem Holds.declare (h : l.Holds declared outer) (hn : VariableNames (declared ++ outer))
    (hv : ∀ text ∈ v.items, RefersTo (declared ++ outer) text) :
    (l.declare name v).Holds (declared ++ [name]) outer := by
  have hget : ∀ n, (l.declare name v).bindings.get? n =
      if n = name then some (l.bindings.substitution.applyValue v) else l.bindings.get? n :=
    fun n => Table.get?_insert l.bindings name n _
  constructor
  · intro n
    rw [hget, List.mem_append, List.mem_singleton, ← h.bound n]
    by_cases heq : n = name <;> simp [heq]
  · intro n w hw
    rw [hget] at hw
    by_cases heq : n = name
    · rw [if_pos heq] at hw
      obtain rfl := Option.some.inj hw
      intro text htext
      rw [Substitution.applyValue, Value.items_map] at htext
      obtain ⟨t, ht, rfl⟩ := List.mem_map.mp htext
      -- the values known so far are put in, so that of all references those to outer names are left
      refine Bindings.refersTo_apply hn (fun n w hw => ?_) (fun n hn => ?_) (fun n hn => hn)
        (fun n w hw _ => h.values n w hw) (fun n hn hnone => ?_) (hv t ht)
      · exact List.mem_append_left _ (h.mem hw)
      · exact List.mem_append_right _ hn
      · rcases List.mem_append.mp hn with hn | hn
        · exact absurd hnone (Option.isSome_iff_ne_none.mp ((h.bound n).mpr hn))
        · exact hn
    · rw [if_neg heq] at hw
      exact h.values n w hw

/-- Declarations one behind the other. -/
theorem Holds.declare_all {ds : List (String × Value String)} (h : l.Holds declared outer)
    (hn : VariableNames (declared ++ ds.map (·.1) ++ outer))
    (hds : ReferBack outer declared ds) :
    (ds.foldl (fun l d => l.declare d.1 d.2) l).Holds (declared ++ ds.map (·.1)) outer := by
  -- along the declarations, each of which may refer to those before it
  induction ds generalizing l declared with
  | nil =>
    rw [List.map_nil, List.append_nil]
    exact h
  | cons d ds ih =>
    have hlist : declared ++ (d :: ds).map (·.1) = declared ++ [d.1] ++ ds.map (·.1) := by
      rw [List.map_cons, List.append_assoc, List.singleton_append]
    have hfirst : (l.declare d.1 d.2).Holds (declared ++ [d.1]) outer := by
      refine h.declare (hn.subset fun n hmem => ?_) hds.1
      rcases List.mem_append.mp hmem with hmem | hmem
      · exact List.mem_append_left _ (List.mem_append_left _ hmem)
      · exact List.mem_append_right _ hmem
    rw [hlist] at hn ⊢
    exact ih hfirst hn hds.2

end Layer

/-- Layers with values for `names`, all of them closed, and with directives that refer to
`names`. -/
structure Settled (names : List String) (layers : List Layer) : Prop where
  bound : ∀ n, (lookupVariable n layers).isSome = true ↔ n ∈ names
  closed : ∀ n v, lookupVariable n layers = some v → ∀ text ∈ v.items, Closed text
  arguments : ∀ d ∈ visibleDirectives layers, ∀ text ∈ d.arguments, RefersTo names text

theorem settled_nil : Settled [] [] :=
  ⟨fun n => by simp [lookupVariable], fun n v hv => absurd hv (by simp [lookupVariable]),
    fun d hd => absurd hd (by simp [visibleDirectives])⟩

variable [Regex.Dialect]

/-! ### Reading a body -/

/-- The variables that a body gives values to, in turn. -/
def declarations (body : List Statement) : List (String × Value String) :=
  body.filterMap Statement.declaration?

/-- The names of the variables that a body gives values to. -/
def declaredNames (body : List Statement) : List String := (declarations body).map (·.1)

/-- The names of `outer` that a body does not declare anew. -/
def inheritedNames (outer : List String) (body : List Statement) : List String :=
  outer.filter (· ∉ declaredNames body)

/-- What a body may refer to inside blocks that declare the names `outer`. -/
structure BodyRefers (outer : List String) (body : List Statement) : Prop where
  /-- A value refers to names declared before it, or to names from outside that the body does
  not declare. -/
  values : ReferBack (inheritedNames outer body) [] (declarations body)
  arguments : ∀ d ∈ body.filterMap Statement.directive?, ∀ text ∈ d.arguments,
    RefersTo (declaredNames body ++ outer) text
  rules : ∀ r ∈ body.filterMap Statement.rule?,
    RefersTo (declaredNames body ++ outer) r.1.value ∧
    RefersTo (declaredNames body ++ outer) r.2.value

theorem mem_inheritedNames {body : List Statement} {n : String} :
    n ∈ inheritedNames outer body ↔ n ∈ outer ∧ n ∉ declaredNames body := by
  unfold inheritedNames
  rw [List.mem_filter, decide_eq_true_iff]

namespace Layer

theorem directives_ofBody (body : List Statement) :
    (ofBody body).directives = body.filterMap Statement.directive? := by
  unfold ofBody
  generalize hl : ({ directives := body.filterMap Statement.directive? } : Layer) = l
  have hdirectives : l.directives = body.filterMap Statement.directive? := hl ▸ rfl
  clear hl
  induction body.filterMap Statement.declaration? generalizing l with
  | nil => exact hdirectives
  | cons d ds ih => exact ih (l.declare d.1 d.2) hdirectives

/-- The layer of a body, before it is settled. -/
theorem holds_ofBody {body : List Statement} (hn : VariableNames (declaredNames body ++ outer))
    (hbody : BodyRefers outer body) :
    (ofBody body).Holds (declaredNames body) (inheritedNames outer body) := by
  have hempty : ({ directives := body.filterMap Statement.directive? } : Layer).Holds []
      (inheritedNames outer body) :=
    ⟨fun n => by simp, fun n v hv => absurd hv (by simp)⟩
  refine hempty.declare_all (hn.subset fun n hmem => ?_) hbody.values
  rcases List.mem_append.mp hmem with hmem | hmem
  · exact List.mem_append_left _ hmem
  · exact List.mem_append_right _ (mem_inheritedNames.mp hmem).1

end Layer

/-! ### Settling -/

/-- What a settled scope is to its block: it has values for `names`, all of them closed; those
that the body does not declare are the ones from outside. -/
structure Scope.Final (enclosing : List Layer) (body : List Statement) (names : List String)
    (s : Scope) : Prop where
  bound : ∀ n, (s.own.bindings.get? n).isSome = true ↔ n ∈ names
  closed : ∀ n v, s.own.bindings.get? n = some v → ∀ text ∈ v.items, Closed text
  inherited : ∀ n, n ∉ declaredNames body →
    s.own.bindings.get? n = lookupVariable n enclosing
  directives : ∀ d ∈ s.own.settled, ∀ text ∈ d.arguments, Closed text

namespace Scope

variable {enclosing : List Layer} {body : List Statement} {s : Scope}

/-- The names visible in a body. -/
theorem bound_visible (houter : Settled outer enclosing) {l : Layer}
    (hown : l.Holds (declaredNames body) put) (n : String) :
    (lookupVariable n (l :: enclosing)).isSome = true ↔ n ∈ declaredNames body ++ outer := by
  rw [lookupVariable, Option.isSome_or, Bool.or_eq_true, hown.bound, houter.bound,
    List.mem_append]

/-- A name that the body does not declare has its value from outside. -/
theorem visible_of_not_declared {l : Layer} (hown : l.Holds (declaredNames body) put)
    {n : String} (h : n ∉ declaredNames body) :
    lookupVariable n (l :: enclosing) = lookupVariable n enclosing := by
  have hnone : l.bindings.get? n = none := by
    cases hget : l.bindings.get? n with
    | none => rfl
    | some v => exact absurd (hown.mem hget) h
  rw [lookupVariable, hnone, Option.none_or]

/-- The values visible in a body, before they are settled, refer outwards at most. -/
theorem values_visible (houter : Settled outer enclosing) {l : Layer}
    (hown : l.Holds (declaredNames body) put) {n : String} {v : Value String}
    (hv : lookupVariable n (l :: enclosing) = some v) :
    ∀ text ∈ v.items, RefersTo put text := by
  intro text htext
  cases hget : l.bindings.get? n with
  | some w =>
    rw [lookupVariable, hget, Option.some_or] at hv
    obtain rfl := Option.some.inj hv
    exact hown.values n w hget text htext
  | none =>
    rw [lookupVariable, hget, Option.none_or] at hv
    exact (houter.closed n v hv text htext).refersTo

/-- The arguments visible in a body, as written, refer to names visible there. -/
theorem arguments_visible (houter : Settled outer enclosing) (hbody : BodyRefers outer body)
    {d : Directive} (hd : d ∈ visibleDirectives (Layer.ofBody body :: enclosing)) :
    ∀ text ∈ d.arguments, RefersTo (declaredNames body ++ outer) text := by
  intro text htext
  rw [visibleDirectives, List.mem_append] at hd
  rcases hd with hd | hd
  · refine (houter.arguments d (List.mem_filter.mp hd).1 text htext).mono fun n hn => ?_
    exact List.mem_append_right _ hn
  · rw [Layer.directives_ofBody] at hd
    exact hbody.arguments d hd text htext

omit [Regex.Dialect] in
/-- A settled scope has what is visible in it, with the visible values put in. -/
theorem get?_settle (s : Scope) (n : String) :
    s.settle.own.bindings.get? n = (lookupVariable n s.layers).map
      (visibleBindings s.layers).substitution.applyValue := by
  rw [← get?_visibleBindings]
  exact Table.get?_mapEntries _ _ n

theorem get?_ofBody (enclosing : List Layer) (body : List Statement) (n : String) :
    (ofBody enclosing body).own.bindings.get? n =
      (lookupVariable n (Layer.ofBody body :: enclosing)).map
        (visibleBindings (Layer.ofBody body :: enclosing)).substitution.applyValue :=
  get?_settle _ n

theorem bound_ofBody (houter : Settled outer enclosing) (hbody : BodyRefers outer body)
    (hn : VariableNames (declaredNames body ++ outer)) (n : String) :
    ((ofBody enclosing body).own.bindings.get? n).isSome = true ↔
      n ∈ declaredNames body ++ outer := by
  rw [get?_ofBody, Option.isSome_map]
  exact bound_visible houter (Layer.holds_ofBody hn hbody) n

theorem mem_of_visible (houter : Settled outer enclosing) {l : Layer}
    (hown : l.Holds (declaredNames body) put) {n : String} {v : Value String}
    (hv : (visibleBindings (l :: enclosing)).get? n = some v) :
    n ∈ declaredNames body ++ outer := by
  rw [get?_visibleBindings] at hv
  exact (bound_visible houter hown n).mp (Option.isSome_of_eq_some hv)

/-- **Settling closes all values.** -/
theorem closed_ofBody (houter : Settled outer enclosing) (hbody : BodyRefers outer body)
    (hn : VariableNames (declaredNames body ++ outer)) {n : String} {v : Value String}
    (hv : (ofBody enclosing body).own.bindings.get? n = some v) :
    ∀ text ∈ v.items, Closed text := by
  have hown := Layer.holds_ofBody hn hbody
  intro text htext
  rw [get?_ofBody] at hv
  obtain ⟨w, hw, rfl⟩ := Option.map_eq_some_iff.mp hv
  rw [Substitution.applyValue, Value.items_map] at htext
  obtain ⟨t, ht, rfl⟩ := List.mem_map.mp htext
  refine refersTo_nil_iff.mp (Bindings.refersTo_apply hn
    (fun m u hu => mem_of_visible houter hown hu)
    (fun m hmem => absurd hmem List.not_mem_nil) (fun m hmem => ?_) (fun m u hu hmem => ?_)
    (fun m hmem hnone => ?_) (values_visible houter hown hw t ht))
  · exact List.mem_append_right _ (mem_inheritedNames.mp hmem).1
  · -- what the values still refer to comes from outside, and is closed
    obtain ⟨-, hfree⟩ := mem_inheritedNames.mp (hmem.resolve_right List.not_mem_nil)
    rw [get?_visibleBindings, visible_of_not_declared hown hfree] at hu
    exact fun t ht => (houter.closed m u hu t ht).refersTo
  · have hsome := (bound_visible houter hown m).mpr
      (List.mem_append_right _ (mem_inheritedNames.mp hmem).1)
    rw [get?_visibleBindings] at hnone
    exact absurd hnone (Option.isSome_iff_ne_none.mp hsome)

/-- A name that the body does not declare keeps its value from outside. -/
theorem inherited_ofBody (houter : Settled outer enclosing) (hbody : BodyRefers outer body)
    (hn : VariableNames (declaredNames body ++ outer)) {n : String}
    (hfree : n ∉ declaredNames body) :
    (ofBody enclosing body).own.bindings.get? n = lookupVariable n enclosing := by
  have hown := Layer.holds_ofBody hn hbody
  rw [get?_ofBody, visible_of_not_declared hown hfree]
  -- a closed value has nothing to put into
  cases hv : lookupVariable n enclosing with
  | none => rfl
  | some v =>
    rw [Option.map_some, Bindings.applyValue_of_closed hn
      (fun m u hu => mem_of_visible houter hown hu) (houter.closed n v hv)]

/-- What a settled scope is to its block. -/
theorem final_ofBody (houter : Settled outer enclosing) (hbody : BodyRefers outer body)
    (hn : VariableNames (declaredNames body ++ outer)) :
    (ofBody enclosing body).Final enclosing body (declaredNames body ++ outer) where
  bound := bound_ofBody houter hbody hn
  closed _ _ hv := closed_ofBody houter hbody hn hv
  inherited _ hfree := inherited_ofBody houter hbody hn hfree
  directives := by
    intro d hd text htext
    -- directives are kept as written on all levels and get their values here, from this scope
    obtain ⟨written, hwritten, rfl⟩ := List.mem_map.mp hd
    obtain ⟨t, ht, rfl⟩ := List.mem_map.mp htext
    exact Bindings.closed_apply hn (bound_ofBody houter hbody hn)
      (fun n v hv => closed_ofBody houter hbody hn hv)
      (arguments_visible houter hbody hwritten t ht)

/-- Putting the final values into a text that refers to visible names. -/
theorem Final.closed_apply {s : Scope} (h : s.Final enclosing body names)
    (hn : VariableNames names) (ht : RefersTo names text) :
    Closed (s.own.bindings.substitution.apply text) :=
  Bindings.closed_apply hn h.bound h.closed ht

theorem Final.closed_rules {s : Scope} (h : s.Final enclosing body names)
    (hn : VariableNames names)
    (hrules : ∀ r ∈ body.filterMap Statement.rule?,
      RefersTo names r.1.value ∧ RefersTo names r.2.value) {r : Rule} (hr : r ∈ s.rules body) :
    Closed r.source ∧ Closed r.target := by
  obtain ⟨⟨source, target⟩, hwritten, rfl⟩ := List.mem_map.mp hr
  obtain ⟨hsource, htarget⟩ := hrules _ hwritten
  exact ⟨h.closed_apply hn hsource, h.closed_apply hn htarget⟩

/-- A settled scope has all that is visible in its own layer. -/
theorem lookup_layers (houter : Settled outer enclosing) (hbody : BodyRefers outer body)
    (hn : VariableNames (declaredNames body ++ outer)) (n : String) :
    lookupVariable n (ofBody enclosing body).layers =
      (ofBody enclosing body).own.bindings.get? n := by
  show ((ofBody enclosing body).own.bindings.get? n).or (lookupVariable n enclosing) = _
  cases hget : (ofBody enclosing body).own.bindings.get? n with
  | some v => rfl
  | none =>
    cases hv : lookupVariable n enclosing with
    | none => rfl
    | some v =>
      have hmem := (houter.bound n).mp (Option.isSome_of_eq_some hv)
      have hsome := (bound_ofBody houter hbody hn n).mpr (List.mem_append_right _ hmem)
      exact absurd hget (Option.isSome_iff_ne_none.mp hsome)

/-- One block inside: settled layers stay settled. -/
theorem settled_layers (houter : Settled outer enclosing) (hbody : BodyRefers outer body)
    (hn : VariableNames (declaredNames body ++ outer)) :
    Settled (declaredNames body ++ outer) (ofBody enclosing body).layers := by
  have hlookup := lookup_layers houter hbody hn
  constructor
  · intro n
    rw [hlookup]
    exact bound_ofBody houter hbody hn n
  · intro n v hv
    rw [hlookup] at hv
    exact closed_ofBody houter hbody hn hv
  · exact fun d hd => arguments_visible houter hbody hd

end Scope

end HostRules
