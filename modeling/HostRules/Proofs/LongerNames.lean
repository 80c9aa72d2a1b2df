/-
HostRules/Proofs/LongerNames.lean

Which name a reference is taken for.  Where values are put into a text, longer names come
before shorter ones, so that `$abc` is not taken for `$a` with `bc` behind it: the replacements
before that of a name pass over it, its own puts the value there, and those behind leave the
value alone (`Substitution.applyChars_put`).

But a value of a variable is put together in two turns, and only the second one sees the
variables of the blocks around.  In the first turn, where the value is declared, a shorter name
from the same body is the longest there is.

Main results: a reference to a variable of a block around gets that variable's value when no
name declared before in the body is the beginning of it (`RuleFile.enclosing_value`), and need
not get it otherwise (`RuleFile.enclosing_value_lost`).
-/
import HostRules.Proofs.Hosts
import HostRules.Proofs.Printer
import HostRules.Proofs.Settling
import HostRules.Regex.Standard

namespace HostRules

variable {n name text left right rest front w : List Char} {d : Char}

/-! ### One replacement in a text cut in two -/

/-- Behind a text that ends where a reference can begin, a name is replaced as if that text were
not there; the text still ends so afterwards. -/
theorem IsVariable.replaceAll_behind (hn : IsVariable n) (hleft : separates left.getLast? = true)
    (text rest : List Char) :
    replaceAll n text (left ++ rest) = replaceAll n text left ++ replaceAll n text rest ∧
      separates (replaceAll n text left).getLast? = true := by
  rcases List.eq_nil_or_concat left with rfl | ⟨front, d, rfl⟩
  · exact ⟨rfl, rfl⟩
  · have hd : separates (some d) = true := by simpa using hleft
    have hfront := replaceAll_append_cons hn.ne_nil (hn.not_mem hd) text front []
    have hboth := replaceAll_append_cons hn.ne_nil (hn.not_mem hd) text front rest
    rw [List.concat_eq_append, List.append_assoc, List.singleton_append, hboth, hfront]
    exact ⟨by simp [replaceAll, replaceFrom], by simpa [replaceAll, replaceFrom] using hd⟩

/-- A name that is not the beginning of another one does not occur where that one stands, if that
one ends there, or if the first does not go on behind it. -/
theorem IsVariable.not_prefix_append (hn : IsVariable n) (hshort : ¬ n <+: name)
    (hright : separates right.head? = true ∨ ¬ name <+: n) : ¬ n <+: name ++ right := by
  intro h
  rcases hright with hright | hlong
  · cases right with
    | nil => exact hshort (by simpa using h)
    | cons d rest => exact hshort (prefix_of_not_mem (hn.not_mem hright) h)
  · rcases List.prefix_or_prefix_of_prefix h (List.prefix_append name right) with h | h
    · exact hshort h
    · exact hlong h

/-- A replacement passes over a longer name. -/
theorem IsVariable.replaceAll_over (hn : IsVariable n) (hname : IsVariable name)
    (hshort : ¬ n <+: name) (hright : separates right.head? = true ∨ ¬ name <+: n) :
    replaceAll n text (name ++ right) = name ++ replaceAll n text right := by
  have hocc := hn.not_prefix_append hshort hright
  obtain ⟨hhead, -, hall⟩ := hname
  cases name with
  | nil => cases hhead
  | cons c cs =>
    have hcs : '$' ∉ cs := by
      intro hmem
      exact absurd (List.all_eq_true.mp hall '$' hmem) (by decide)
    rw [List.cons_append] at hocc ⊢
    rw [replaceAll_cons_of_not_starts hocc, replaceAll_append_of_not_mem hn.1 hcs]
    rfl

theorem IsVariable.separates_head?_replaceAll (hn : IsVariable n)
    (h : separates right.head? = true) : separates (replaceAll n text right).head? = true := by
  cases right with
  | nil => rfl
  | cons d rest =>
    rw [replaceAll_cons_of_ne hn.1 (separates_iff.mp h).1]
    exact h

/-! ### The length of names -/

theorem byteLength_append (a b : List Char) :
    byteLength (a ++ b) = byteLength a + byteLength b := by
  induction a with
  | nil => simp [byteLength]
  | cons c cs ih =>
    have hcons : ∀ more, byteLength (c :: more) = c.utf8Size + byteLength more := fun _ => rfl
    rw [List.cons_append, hcons, hcons, ih, Nat.add_assoc]

/-- The beginning of a text that is as long as the text is the text. -/
theorem eq_of_prefix_of_byteLength_le (h : n <+: name)
    (hle : byteLength name ≤ byteLength n) : n = name := by
  obtain ⟨more, rfl⟩ := h
  cases more with
  | nil => rw [List.append_nil]
  | cons c cs =>
    have hpos := c.utf8Size_pos
    have hcons : byteLength (c :: cs) = c.utf8Size + byteLength cs := rfl
    rw [byteLength_append, hcons] at hle
    omega

/-! ### All replacements in a text cut in three -/

namespace Substitution

variable {σ : Substitution}

/-- Replacements pass over a name that none of theirs is the beginning of. -/
theorem applyChars_over (hσ : ∀ r ∈ σ, IsVariable r.name) (hname : IsVariable name)
    (hshort : ∀ r ∈ σ, ¬ r.name <+: name) (hleft : separates left.getLast? = true)
    (hright : separates right.head? = true ∨ ∀ r ∈ σ, ¬ name <+: r.name) :
    σ.applyChars (left ++ (name ++ right)) =
        σ.applyChars left ++ (name ++ σ.applyChars right) ∧
      separates (σ.applyChars left).getLast? = true ∧
      (separates right.head? = true → separates (σ.applyChars right).head? = true) := by
  -- one replacement keeps the cuts where they are, and what is asked of the two sides
  induction σ generalizing left right with
  | nil => exact ⟨rfl, hleft, id⟩
  | cons r σ ih =>
    obtain ⟨hr, hσ'⟩ := List.forall_mem_cons.mp hσ
    obtain ⟨hrshort, hshort'⟩ := List.forall_mem_cons.mp hshort
    obtain ⟨hcut, hleft'⟩ := hr.replaceAll_behind hleft r.text (name ++ right)
    have hover : replaceAll r.name r.text (name ++ right) =
        name ++ replaceAll r.name r.text right :=
      hr.replaceAll_over hname hrshort
        (hright.imp_right fun hlong => hlong r List.mem_cons_self)
    have hright' : separates (replaceAll r.name r.text right).head? = true ∨
        ∀ s ∈ σ, ¬ name <+: s.name := by
      rcases hright with hright | hlong
      · exact Or.inl (hr.separates_head?_replaceAll hright)
      · exact Or.inr fun s hs => hlong s (List.mem_cons_of_mem r hs)
    obtain ⟨hmore, hlast, hhead⟩ := ih hσ' hshort' hleft' hright'
    refine ⟨?_, hlast, fun h => hhead (hr.separates_head?_replaceAll h)⟩
    show applyChars σ (replaceAll r.name r.text (left ++ (name ++ right))) = _
    rw [hcut, hover]
    exact hmore

/-- Replacements leave a text without `$` as it is, with others on both sides. -/
theorem applyChars_around (hσ : ∀ r ∈ σ, IsVariable r.name)
    (hleft : separates left.getLast? = true) (hw : '$' ∉ w) :
    σ.applyChars (left ++ (w ++ right)) = σ.applyChars left ++ (w ++ σ.applyChars right) := by
  induction σ generalizing left right with
  | nil => rfl
  | cons r σ ih =>
    obtain ⟨hr, hσ'⟩ := List.forall_mem_cons.mp hσ
    obtain ⟨hcut, hleft'⟩ := hr.replaceAll_behind hleft r.text (w ++ right)
    show applyChars σ (replaceAll r.name r.text (left ++ (w ++ right))) = _
    rw [hcut, replaceAll_append_of_not_mem hr.1 hw]
    exact ih hσ' hleft'

/-- **Longer names first**: among replacements in the order of their length, a name in a text
gets its value, whatever shorter names there are. -/
theorem applyChars_put (hσ : ∀ r ∈ σ, IsVariable r.name)
    (horder : σ.Pairwise fun r s => byteLength s.name ≤ byteLength r.name)
    (hmem : ⟨name, w⟩ ∈ σ) (hunique : ∀ r ∈ σ, r.name = name → r.text = w) (hw : '$' ∉ w)
    (hleft : separates left.getLast? = true)
    (hright : separates right.head? = true ∨ ∀ r ∈ σ, name <+: r.name → r.name = name) :
    σ.applyChars (left ++ (name ++ right)) = σ.applyChars left ++ (w ++ σ.applyChars right) := by
  have hname : IsVariable name := hσ _ hmem
  obtain ⟨before, after, rfl, hfirst⟩ := List.eq_append_cons_of_mem hmem
  have hbefore : ∀ r ∈ before, r ∈ before ++ ⟨name, w⟩ :: after := fun r hr =>
    List.mem_append_left _ hr
  have hother : ∀ r ∈ before, r.name ≠ name := by
    intro r hr hrname
    have hrtext := hunique r (hbefore r hr) hrname
    refine hfirst ?_
    rwa [← hrname, ← hrtext]
  -- the names before are at least as long, so none of them is the beginning of this one
  have hshort : ∀ r ∈ before, ¬ r.name <+: name := by
    intro r hr hprefix
    have hlength := (List.pairwise_append.mp horder).2.2 r hr _ List.mem_cons_self
    exact hother r hr (eq_of_prefix_of_byteLength_le hprefix hlength)
  have hlong : separates right.head? = true ∨ ∀ r ∈ before, ¬ name <+: r.name :=
    hright.imp_right fun h r hr hprefix => hother r hr (h r (hbefore r hr) hprefix)
  obtain ⟨hover, hleft', -⟩ :=
    applyChars_over (fun r hr => hσ r (hbefore r hr)) hname hshort hleft hlong
  have hsplit : ∀ cs, applyChars (before ++ ⟨name, w⟩ :: after) cs =
      applyChars after (replaceAll name w (applyChars before cs)) := by
    intro cs
    unfold applyChars
    rw [List.foldl_append, List.foldl_cons]
  obtain ⟨hcut, hleft''⟩ :=
    hname.replaceAll_behind hleft' w (name ++ applyChars before right)
  have hafter : ∀ r ∈ after, IsVariable r.name := fun r hr =>
    hσ r (List.mem_append_right _ (List.mem_cons_of_mem _ hr))
  rw [hsplit, hover, hcut, replaceAll_append_left hname.ne_nil,
    applyChars_around hafter hleft'' hw, hsplit, hsplit]

end Substitution

namespace Bindings

variable {bindings : Bindings} {name : String} {v : Value String}

/-- The references of a substitution have the names that have a value. -/
theorem forall_substitution (p : List Char → Prop) (h : ∀ m ∈ bindings.names, p m.toList) :
    ∀ r ∈ bindings.substitution, p r.name := by
  intro r hr
  obtain ⟨m, u, hget, rfl, -⟩ := mem_substitution.mp hr
  exact h m (Table.mem_names_iff.mpr (Option.isSome_of_eq_some hget))

/-- A reference stays as it is when no name with a value is the beginning of it. -/
theorem applyChars_over (hn : ∀ m ∈ bindings.names, IsVariable m.toList)
    (hname : IsVariable name.toList) (hshort : ∀ m ∈ bindings.names, ¬ m.toList <+: name.toList)
    (hleft : separates left.getLast? = true)
    (hright : separates right.head? = true ∨
      ∀ m ∈ bindings.names, ¬ name.toList <+: m.toList) :
    bindings.substitution.applyChars (left ++ (name.toList ++ right)) =
        bindings.substitution.applyChars left ++
          (name.toList ++ bindings.substitution.applyChars right) ∧
      separates (bindings.substitution.applyChars left).getLast? = true ∧
      (separates right.head? = true →
        separates (bindings.substitution.applyChars right).head? = true) := by
  have hright' : separates right.head? = true ∨
      ∀ r ∈ bindings.substitution, ¬ name.toList <+: r.name := by
    refine hright.imp_right ?_
    exact forall_substitution fun w => ¬ name.toList <+: w
  have hshort' : ∀ r ∈ bindings.substitution, ¬ r.name <+: name.toList :=
    forall_substitution (fun w => ¬ w <+: name.toList) hshort
  exact Substitution.applyChars_over (forall_substitution IsVariable hn) hname hshort' hleft hright'

/-- A reference gets its value, whatever shorter names have one. -/
theorem applyChars_put (hn : ∀ m ∈ bindings.names, IsVariable m.toList)
    (hv : bindings.get? name = some v) (hclosed : Closed v.text)
    (hleft : separates left.getLast? = true)
    (hright : separates right.head? = true ∨
      ∀ m ∈ bindings.names, name.toList <+: m.toList → m = name) :
    bindings.substitution.applyChars (left ++ (name.toList ++ right)) =
      bindings.substitution.applyChars left ++
        (v.text.toList ++ bindings.substitution.applyChars right) := by
  have hname := hn name (Table.mem_names_iff.mpr (Option.isSome_of_eq_some hv))
  refine Substitution.applyChars_put (forall_substitution IsVariable hn) (pairwise_longestFirst _)
    (mem_substitution.mpr ⟨name, v, hv, rfl, hname.ne_nil⟩) ?_ hclosed hleft ?_
  · intro r hr heq
    obtain ⟨m, u, hget, rfl, -⟩ := mem_substitution.mp hr
    obtain rfl : m = name := String.toList_injective heq
    rw [hv] at hget
    rw [Option.some.inj hget]
  · refine hright.imp_right fun hlong r hr hprefix => ?_
    obtain ⟨m, u, hget, rfl, -⟩ := mem_substitution.mp hr
    rw [hlong m (Table.mem_names_iff.mpr (Option.isSome_of_eq_some hget)) hprefix]

end Bindings

section

variable [Regex.Dialect]

/-! ### The layer of a body -/

namespace Layer

variable {body before after : List Statement} {x m : String} {v : Value Token}

/-- The variables of a body do not depend on its directives. -/
theorem bindings_ofBody (body : List Statement) :
    (ofBody body).bindings = (declarations body).foldl
      (fun b d => b.insert d.1 (b.substitution.applyValue d.2)) ∅ := by
  unfold ofBody
  generalize hl : ({ directives := body.filterMap Statement.directive? } : Layer) = l
  have hempty : l.bindings = ∅ := hl ▸ rfl
  rw [← hempty]
  clear hl hempty
  show _ = (body.filterMap Statement.declaration?).foldl _ l.bindings
  induction body.filterMap Statement.declaration? generalizing l with
  | nil => rfl
  | cons d ds ih => exact ih (l.declare d.1 d.2)

omit [Regex.Dialect] in
theorem mem_names_foldl (ds : List (String × Value String)) (b : Bindings) (m : String) :
    m ∈ (ds.foldl (fun b d => b.insert d.1 (b.substitution.applyValue d.2)) b).names ↔
      m ∈ b.names ∨ m ∈ ds.map (·.1) := by
  induction ds generalizing b with
  | nil => simp
  | cons d ds ih =>
    rw [List.foldl_cons, ih, Table.mem_names_iff, Table.get?_insert, Table.mem_names_iff]
    by_cases h : m = d.1 <;> simp [h]

/-- A body has values for the variables that it declares. -/
theorem mem_names_ofBody : m ∈ (ofBody body).bindings.names ↔ m ∈ declaredNames body := by
  rw [bindings_ofBody, mem_names_foldl, Table.mem_names_iff]
  simp [declaredNames]

omit [Regex.Dialect] in
theorem get?_foldl_of_not_mem {ds : List (String × Value String)} (h : x ∉ ds.map (·.1))
    (b : Bindings) :
    (ds.foldl (fun b d => b.insert d.1 (b.substitution.applyValue d.2)) b).get? x = b.get? x := by
  induction ds generalizing b with
  | nil => rfl
  | cons d ds ih =>
    have hne : x ≠ d.1 := fun heq => h (heq ▸ List.mem_cons_self)
    have hds : x ∉ ds.map (·.1) := fun hmem => h (List.mem_cons_of_mem _ hmem)
    rw [List.foldl_cons, ih hds, Table.get?_insert, if_neg hne]

theorem declarations_declare :
    declarations (before ++ .declare x v :: after) =
      declarations before ++ (x, v.map (·.value)) :: declarations after := by
  unfold declarations
  rw [List.filterMap_append, List.filterMap_cons]
  rfl

/-- The last declaration of a variable counts; it sees the declarations before it. -/
theorem get?_ofBody_declare (hlast : x ∉ declaredNames after) :
    (ofBody (before ++ .declare x v :: after)).bindings.get? x =
      some ((ofBody before).bindings.substitution.applyValue (v.map (·.value))) := by
  rw [bindings_ofBody, declarations_declare, List.foldl_append, List.foldl_cons,
    get?_foldl_of_not_mem hlast, Table.get?_insert, if_pos rfl, ← bindings_ofBody]

end Layer

/-! ### The two turns of a value -/

namespace Scope

variable {enclosing : List Layer} {body before after : List Statement} {x m name : String}
variable {v : Value Token} {w : Value String}

/-- What becomes of a text in a value that is declared behind the statements `before` of a body:
first the values that these declare are put in, then those that are visible in the body. -/
def finalText (enclosing : List Layer) (before body : List Statement) (text : String) : String :=
  (visibleBindings (Layer.ofBody body :: enclosing)).substitution.apply
    ((Layer.ofBody before).bindings.substitution.apply text)

/-- The final value of a variable that is declared for the last time. -/
theorem get?_ofBody_declare (hlast : x ∉ declaredNames after) :
    (ofBody enclosing (before ++ .declare x v :: after)).own.bindings.get? x =
      some ((v.map (·.value)).map
        (finalText enclosing before (before ++ .declare x v :: after))) := by
  rw [get?_ofBody, lookupVariable, Layer.get?_ofBody_declare hlast, Option.some_or,
    Option.map_some, Substitution.applyValue, Substitution.applyValue, Value.map_map]
  rfl

/-- A settled scope has the variables that are visible in it. -/
theorem mem_names_ofBody :
    m ∈ (ofBody enclosing body).own.bindings.names ↔
      m ∈ (visibleBindings (Layer.ofBody body :: enclosing)).names := by
  rw [Table.mem_names_iff, get?_ofBody, Option.isSome_map, Table.mem_names_iff,
    get?_visibleBindings]

theorem mem_visible_of_declared (h : m ∈ declaredNames body) :
    m ∈ (visibleBindings (Layer.ofBody body :: enclosing)).names := by
  have hown := Table.mem_names_iff.mp (Layer.mem_names_ofBody.mpr h)
  rw [Table.mem_names_iff, get?_visibleBindings, lookupVariable, Option.isSome_or, hown,
    Bool.true_or]

theorem visible_of_free (hfree : name ∉ declaredNames body) :
    (visibleBindings (Layer.ofBody body :: enclosing)).get? name =
      lookupVariable name enclosing := by
  have hown : (Layer.ofBody body).bindings.get? name = none := by
    cases hget : (Layer.ofBody body).bindings.get? name with
    | none => rfl
    | some u =>
      have hmem := Table.mem_names_iff.mpr (Option.isSome_of_eq_some hget)
      exact absurd (Layer.mem_names_ofBody.mp hmem) hfree
  rw [get?_visibleBindings, lookupVariable, hown, Option.none_or]

/-- A reference to a variable from outside gets its value, when no name that is declared before
it is the beginning of its name. -/
theorem finalText_reference {left right : String}
    (hn : ∀ m ∈ (visibleBindings (Layer.ofBody body :: enclosing)).names, IsVariable m.toList)
    (hsub : ∀ m ∈ declaredNames before, m ∈ declaredNames body)
    (hfree : name ∉ declaredNames body) (hw : lookupVariable name enclosing = some w)
    (hclosed : Closed w.text)
    (hshort : ∀ m ∈ declaredNames before, ¬ m.toList <+: name.toList)
    (hleft : separates left.toList.getLast? = true)
    (hright : separates right.toList.head? = true ∨
      ∀ m ∈ (visibleBindings (Layer.ofBody body :: enclosing)).names,
        name.toList <+: m.toList → m = name) :
    finalText enclosing before body (left ++ name ++ right) =
      finalText enclosing before body left ++ w.text ++ finalText enclosing before body right := by
  have hvisible : (visibleBindings (Layer.ofBody body :: enclosing)).get? name = some w :=
    (visible_of_free hfree).trans hw
  have hname := hn name (Table.mem_names_iff.mpr (Option.isSome_of_eq_some hvisible))
  have hseen : ∀ m ∈ (Layer.ofBody before).bindings.names, m ∈ declaredNames before ∧
      m ∈ (visibleBindings (Layer.ofBody body :: enclosing)).names := by
    intro m hm
    have hdeclared := Layer.mem_names_ofBody.mp hm
    exact ⟨hdeclared, mem_visible_of_declared (hsub m hdeclared)⟩
  -- in the first turn the reference stays as it is
  have hlong : separates right.toList.head? = true ∨
      ∀ m ∈ (Layer.ofBody before).bindings.names, ¬ name.toList <+: m.toList := by
    refine hright.imp_right fun hlong m hm hprefix => ?_
    obtain ⟨hdeclared, hmem⟩ := hseen m hm
    rw [hlong m hmem hprefix] at hdeclared
    exact hfree (hsub name hdeclared)
  obtain ⟨hover, hleft', hhead⟩ := Bindings.applyChars_over (fun m hm => hn m (hseen m hm).2) hname
    (fun m hm => hshort m (hseen m hm).1) hleft hlong
  -- in the second one it is replaced
  have hput := Bindings.applyChars_put hn hvisible hclosed hleft' (hright.imp_left hhead)
  apply String.toList_injective
  unfold finalText Substitution.apply
  simp only [String.toList_ofList, String.toList_append, List.append_assoc]
  rw [hover, hput]

end Scope

/-! ### The bodies of a file -/

namespace RuleFile

/-- A body of a file inside another one, with the settled scope of that one and its own. -/
inductive Nested (f : RuleFile) : (outer inner : Scope) → (body : List Statement) → Prop
  | domain {block : List String × List Statement} :
      block ∈ domainBlocks f.body → Nested f f.scope (f.domainScope block.2) block.2
  | location {block : List String × List Statement} {l : LocationPattern × List Statement} :
      block ∈ domainBlocks f.body → l ∈ locationBlocks block.2 →
        Nested f (f.domainScope block.2) (f.locationScope block.2 l.2) l.2

variable {f : RuleFile} {outer inner : Scope} {body before after : List Statement}
variable {x name : String} {v : Value Token} {w : Value String}

theorem Nested.eq_ofBody (h : f.Nested outer inner body) :
    inner = Scope.ofBody outer.layers body := by
  cases h <;> rfl

/-- **A value from outside is put in for the whole name.**  In the final value of a variable `x`
a reference to a variable of the block around has been replaced by that variable's value, if no
name that the body has declared before `x` is the beginning of the reference's name.  All
variables are asked to have names of variables, and where another reference follows at once, no
name may go on behind this one. -/
theorem enclosing_value (hnested : f.Nested outer inner body)
    (hbody : body = before ++ .declare x v :: after) (hlast : x ∉ declaredNames after)
    (hfree : name ∉ declaredNames body) (hw : outer.own.bindings.get? name = some w)
    (hclosed : Closed w.text) (hvariables : ∀ m ∈ inner.own.bindings.names, IsVariable m.toList)
    (hshort : ∀ m ∈ declaredNames before, ¬ m.toList <+: name.toList) :
    inner.own.bindings.get? x =
        some ((v.map (·.value)).map (Scope.finalText outer.layers before body)) ∧
      ∀ left right : String, separates left.toList.getLast? = true →
        (∀ c, right.toList.head? = some c → isNameChar c = false) →
        (right.toList.head? = some '$' →
          ∀ m ∈ inner.own.bindings.names, name.toList <+: m.toList → m = name) →
        Scope.finalText outer.layers before body (left ++ name ++ right) =
          Scope.finalText outer.layers before body left ++ w.text ++
            Scope.finalText outer.layers before body right := by
  obtain rfl := hnested.eq_ofBody
  have hnames : ∀ m, m ∈ (Scope.ofBody outer.layers body).own.bindings.names ↔ _ :=
    fun m => Scope.mem_names_ofBody
  have hsub : ∀ m ∈ declaredNames before, m ∈ declaredNames body := by
    intro m hm
    rw [hbody, declaredNames, Layer.declarations_declare, List.map_append]
    exact List.mem_append_left _ hm
  have hvisible : lookupVariable name outer.layers = some w := by
    show (outer.own.bindings.get? name).or _ = some w
    rw [hw, Option.some_or]
  constructor
  · rw [hbody]
    exact Scope.get?_ofBody_declare hlast
  · intro left right hleft hend hdollar
    refine Scope.finalText_reference (fun m hm => hvariables m ((hnames m).mpr hm)) hsub hfree
      hvisible hclosed hshort hleft ?_
    cases hhead : right.toList.head? with
    | none => exact Or.inl rfl
    | some c =>
      by_cases hc : c = '$'
      · subst hc
        exact Or.inr fun m hm => hdollar hhead m ((hnames m).mpr hm)
      · exact Or.inl (separates_iff.mpr ⟨hc, hend c hhead⟩)

end RuleFile

end

namespace RuleFile

/-- A domain block declares a variable and then mentions `$abc` from outside, between a character
that separates and another reference. -/
def mentionSample : RuleFile where
  body := [
    .declare "$abc" (.scalar (.string "1")),
    .domain ["d.com"] [
      .declare "$b" (.scalar (.string "x")),
      .declare "$v" (.list [.string "-$abc$b", .string "$abc"])]]

theorem enclosing_value_mentionSample :
    let before : List Statement := [.declare "$b" (.scalar (.string "x"))]
    let v : Value Token := .list [.string "-$abc$b", .string "$abc"]
    let body := before ++ [.declare "$v" v]
    let final := Scope.finalText mentionSample.scope.layers before body
    (mentionSample.Nested mentionSample.scope (mentionSample.domainScope body) body ∧
      mentionSample.scope.own.bindings.get? "$abc" = some (.scalar "1")) ∧
    (mentionSample.domainScope body).own.bindings.get? "$v" =
        some (.list [final "-$abc$b", final "$abc"]) ∧
      final ("-" ++ "$abc" ++ "$b") = final "-" ++ "1" ++ final "$b" := by
  intro before v body final
  have hblock : (["d.com"], body) ∈ domainBlocks mentionSample.body := List.mem_cons_self
  have hnested := Nested.domain hblock
  have hw : mentionSample.scope.own.bindings.get? "$abc" = some (.scalar "1") := by
    decide +kernel
  have hnames : (mentionSample.domainScope body).own.bindings.names = ["$abc", "$b", "$v"] := by
    decide +kernel
  have hclosed : Closed (Value.scalar "1").text := by
    unfold Closed
    decide
  obtain ⟨hget, hreference⟩ := enclosing_value hnested rfl (by decide) (by decide) hw hclosed
    (by rw [hnames]; decide) (by decide)
  have hhead : "$b".toList.head? = some '$' := by decide
  refine ⟨⟨hnested, hw⟩, hget, hreference "-" "$b" (by decide) ?_ ?_⟩
  · intro c hc
    rw [hhead] at hc
    rw [← Option.some.inj hc]
    decide
  · intro _
    rw [hnames]
    decide

/-- A value and an argument both mention `$abc` from outside, behind a declaration of `$a`. -/
def shadeSample : String :=
  "set $abc 1\ndomain d.com \x7b\nset $a x\nset $v $abc\nlog $abc\n\x7d"

/-- In the value `$abc` is taken for `$a` with `bc` behind it, in the argument it is not. -/
theorem enclosing_value_lost : ∃ f, parse shadeSample = .ok f ∧ ∃ block ∈ domainBlocks f.body,
    ("$v", .scalar "$abc") ∈ declarations block.2 ∧ "$abc" ∉ declaredNames block.2 ∧
    f.scope.own.bindings.get? "$abc" = some (.scalar "1") ∧
    (f.domainScope block.2).own.bindings.get? "$v" = some (.scalar "xbc") ∧
    (f.domainScope block.2).own.settled = [⟨"log", ["1"]⟩] :=
  exists_parse (by decide +kernel)

end RuleFile

end HostRules
