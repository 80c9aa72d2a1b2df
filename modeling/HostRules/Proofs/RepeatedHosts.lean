/-
HostRules/Proofs/RepeatedHosts.lean

Which block a definition comes from when several domain blocks name one host.  Inside a block
its own definitions hide those of the global block (`RuleFile.ownWins`).  Of several blocks the
first one with a definition decides, its own or inherited; so a definition of the global block
counts as one of the first block, and as one of a later block never (`Decides`).

Main results: what decides about a name that some block of the host defines itself
(`RuleFile.resolve_own_first`), and that it need not be one of those blocks
(`RuleFile.inherited_hides_later_own`).
-/
import HostRules.Proofs.Closed
import HostRules.Proofs.LongerNames
import HostRules.Regex.Standard

namespace HostRules

/-! ### The block that decides -/

/-- Which of some blocks decides about a name, where some blocks define it `locally`, and all of
them inherit it if it is defined `globally`. -/
inductive Decides {β : Type} (globally : Prop) (locally : β → Prop) : List β → β → Prop
  /-- The first block that defines the name itself, unless a block before it inherits it. -/
  | own {before after block} : locally block → (∀ b ∈ before, ¬ locally b) →
      (globally → before = []) → Decides globally locally (before ++ block :: after) block
  /-- The first block of all, when it inherits the name. -/
  | inherited {block after} :
      globally → ¬ locally block → Decides globally locally (block :: after) block

namespace Decides

variable {β : Type} {globally : Prop} {locally : β → Prop} {blocks : List β} {block : β}

/-- If a block defines the name itself, some block decides. -/
theorem exists_of_local [DecidablePred locally] (globally : Prop) (h : ∃ b ∈ blocks, locally b) :
    ∃ block, Decides globally locally blocks block := by
  by_cases hglobally : globally
  · -- all blocks have the name, so the first one decides, by its own or the inherited one
    cases blocks with
    | nil =>
      obtain ⟨b, hb, -⟩ := h
      exact absurd hb List.not_mem_nil
    | cons first more =>
      by_cases hfirst : locally first
      · have hown : Decides globally locally ([] ++ first :: more) first :=
          .own hfirst (fun _ hb => absurd hb List.not_mem_nil) fun _ => rfl
        exact ⟨first, hown⟩
      · exact ⟨first, .inherited hglobally hfirst⟩
  · -- only own definitions count, and the first block with one decides
    have hfound : (blocks.find? fun b => decide (locally b)).isSome = true := by
      rw [List.find?_isSome]
      simpa using h
    obtain ⟨block, hblock⟩ := Option.isSome_iff_exists.mp hfound
    obtain ⟨hlocally, before, after, rfl, hbefore⟩ := List.find?_eq_some_iff_append.mp hblock
    exact ⟨block, .own (of_decide_eq_true hlocally) (by simpa using hbefore)
      fun h => absurd h hglobally⟩

/-- The deciding block is the first one that has the name, its own or inherited. -/
theorem cut (h : Decides globally locally blocks block) :
    ∃ before after, blocks = before ++ block :: after ∧ (locally block ∨ globally) ∧
      ∀ b ∈ before, ¬ (locally b ∨ globally) := by
  cases h with
  | @own before after _ hlocally hbefore hglobally =>
    refine ⟨before, after, rfl, Or.inl hlocally, ?_⟩
    rintro b hb (hb' | hglobally')
    · exact hbefore b hb hb'
    · -- a global definition is inherited by every block, so none stands before
      rw [hglobally hglobally'] at hb
      exact absurd hb List.not_mem_nil
  | @inherited _ after hglobally _ =>
    exact ⟨[], after, rfl, Or.inr hglobally, fun _ hb => absurd hb List.not_mem_nil⟩

/-- What is found first is what the deciding block has. -/
theorem findSome?_eq {γ : Type} {g : β → Option γ} (h : Decides globally locally blocks block)
    (hg : ∀ b, (g b).isSome = true ↔ locally b ∨ globally) : blocks.findSome? g = g block := by
  obtain ⟨before, after, rfl, hblock, hbefore⟩ := h.cut
  have hnone : before.findSome? g = none := by
    refine List.findSome?_eq_none_iff.mpr fun b hb => ?_
    rw [← Option.not_isSome_iff_eq_none, hg]
    exact hbefore b hb
  obtain ⟨v, hv⟩ := Option.isSome_iff_exists.mp ((hg block).mpr hblock)
  rw [List.findSome?_append, hnone, Option.none_or, List.findSome?_cons, hv]

end Decides

/-! ### Directives of one name -/

/-- The directives that have a name. -/
def named (name : String) (ds : List Directive) : List Directive := ds.filter (·.name == name)

theorem named_eq_nil {name : String} {ds : List Directive}
    (h : ¬ definesDirective ds name = true) : named name ds = [] := by
  refine List.filter_eq_nil_iff.mpr fun d hd heq => h ?_
  rw [← eq_of_beq heq]
  exact definesDirective_of_mem hd

theorem named_append (name : String) (ds es : List Directive) :
    named name (ds ++ es) = named name ds ++ named name es :=
  List.filter_append _ _

/-- Directives are left out by their names. -/
theorem named_filter (name : String) (seen ds : List Directive) :
    named name (ds.filter (!definesDirective seen ·.name)) =
      if definesDirective seen name then [] else named name ds := by
  unfold named
  rw [List.filter_filter]
  split
  · next hseen =>
    refine List.filter_eq_nil_iff.mpr fun d hd hboth => ?_
    obtain ⟨heq, hnew⟩ := Bool.and_eq_true_iff.mp hboth
    rw [eq_of_beq heq, hseen] at hnew
    exact absurd hnew (by decide)
  · next hseen =>
    refine List.filter_congr fun d hd => ?_
    cases heq : d.name == name with
    | false => rfl
    | true => simp [eq_of_beq heq, hseen]

/-- Directives of a known name do not come again. -/
theorem named_firstDefined_of_seen {name : String} {seen : List Directive}
    (h : definesDirective seen name = true) (lists : List (List Directive)) :
    named name (firstDefined seen lists) = [] := by
  induction lists generalizing seen with
  | nil => rfl
  | cons ds more ih =>
    -- what is known stays known behind every list
    have hmore : definesDirective (seen ++ ds) name = true := by
      rw [definesDirective_append, h, Bool.true_or]
    rw [firstDefined, named_append, named_filter, if_pos h, ih hmore, List.append_nil]

/-- The directives of a name are those of the deciding block. -/
theorem Decides.named_firstDefined {β : Type} {globally : Prop} {locally : β → Prop}
    {blocks : List β} {block : β} {name : String} {ds : β → List Directive}
    (h : Decides globally locally blocks block)
    (hds : ∀ b, definesDirective (ds b) name = true ↔ locally b ∨ globally) :
    named name (firstDefined [] (blocks.map ds)) = named name (ds block) := by
  obtain ⟨before, after, rfl, hblock, hbefore⟩ := h.cut
  -- the blocks before do not have the name, so they neither give a directive of it nor keep one
  -- from being taken; those after come too late
  have hunknown : ¬ definesDirective (before.map ds).flatten name = true := by
    intro hdefines
    obtain ⟨d, hd, heq⟩ := List.any_eq_true.mp hdefines
    obtain ⟨es, hes, hd⟩ := List.mem_flatten.mp hd
    obtain ⟨b, hb, rfl⟩ := List.mem_map.mp hes
    refine hbefore b hb ((hds b).mp ?_)
    rw [← eq_of_beq heq]
    exact definesDirective_of_mem hd
  have hfront : named name (firstDefined [] (before.map ds)) = [] := by
    refine named_eq_nil fun hdefines => hunknown ?_
    obtain ⟨d, hd, heq⟩ := List.any_eq_true.mp hdefines
    obtain ⟨es, hes, hd⟩ := mem_firstDefined hd
    exact List.any_eq_true.mpr ⟨d, List.mem_flatten.mpr ⟨es, hes, hd⟩, heq⟩
  have hknown : definesDirective ((before.map ds).flatten ++ ds block) name = true := by
    rw [definesDirective_append, (hds block).mpr hblock, Bool.or_true]
  rw [List.map_append, List.map_cons, firstDefined_append, named_append, hfront, List.nil_append,
    List.nil_append, firstDefined, named_append, named_filter, if_neg hunknown,
    named_firstDefined_of_seen hknown, List.append_nil]

theorem named_substitute (name : String) (σ : Substitution) (ds : List Directive) :
    named name (ds.map (·.substitute σ)) = (named name ds).map (·.substitute σ) := by
  unfold named
  rw [List.filter_map]
  rfl

theorem definesDirective_substitute (name : String) (σ : Substitution) (ds : List Directive) :
    definesDirective (ds.map (·.substitute σ)) name = definesDirective ds name := by
  unfold definesDirective
  rw [List.any_map]
  rfl

section

variable [Regex.Dialect]

/-! ### What a domain block defines -/

/-- The directives that a body writes. -/
def writtenDirectives (body : List Statement) : List Directive :=
  body.filterMap Statement.directive?

/-- A body writes a directive of a name. -/
def Writes (name : String) (body : List Statement) : Prop :=
  definesDirective (writtenDirectives body) name = true

instance (name : String) (body : List Statement) : Decidable (Writes name body) :=
  inferInstanceAs (Decidable (definesDirective (writtenDirectives body) name = true))

namespace RuleFile

variable {f : RuleFile} {block : List String × List Statement} {name : String}

/-- What a domain block defines itself is what holds in it: the value is that of the block's own
declaration, and the directives are the block's own, with the visible values put in. -/
structure OwnWins (f : RuleFile) (block : List String × List Statement) : Prop where
  values : ∀ name ∈ declaredNames block.2,
    (f.domainScope block.2).own.bindings.get? name =
      ((Layer.ofBody block.2).bindings.get? name).map
        (visibleBindings (Layer.ofBody block.2 :: f.scope.layers)).substitution.applyValue
  directives : ∀ name, Writes name block.2 →
    named name (f.domainScope block.2).own.settled =
      (named name (writtenDirectives block.2)).map
        (·.substitute (f.domainScope block.2).own.bindings.substitution)

/-- The directives of a domain block: those of the global block that it does not hide, and its
own. -/
theorem settled_domainScope (f : RuleFile) (body : List Statement) :
    (f.domainScope body).own.settled =
      ((writtenDirectives f.body).filter (!definesDirective (writtenDirectives body) ·.name) ++
          writtenDirectives body).map
        (·.substitute (f.domainScope body).own.bindings.substitution) := by
  have hglobal : visibleDirectives f.scope.layers = writtenDirectives f.body :=
    Layer.directives_ofBody f.body
  have hvisible : visibleDirectives (Layer.ofBody body :: f.scope.layers) =
      (writtenDirectives f.body).filter (!definesDirective (writtenDirectives body) ·.name) ++
        writtenDirectives body := by
    rw [visibleDirectives, hglobal, Layer.directives_ofBody]
    rfl
  rw [← hvisible]
  rfl

theorem ownWins (f : RuleFile) (block : List String × List Statement) : f.OwnWins block where
  values := by
    intro name hname
    have hown := Table.mem_names_iff.mp (Layer.mem_names_ofBody.mpr hname)
    obtain ⟨v, hv⟩ := Option.isSome_iff_exists.mp hown
    unfold domainScope
    rw [Scope.get?_ofBody, lookupVariable, hv, Option.some_or]
  directives := by
    intro name hname
    have hdefines : definesDirective (writtenDirectives block.2) name = true := hname
    rw [settled_domainScope, named_substitute, named_append, named_filter, if_pos hdefines,
      List.nil_append]

/-- The variables of a domain block are its own and the global ones. -/
theorem isSome_get?_domainScope (f : RuleFile) (body : List Statement) (name : String) :
    ((f.domainScope body).own.bindings.get? name).isSome = true ↔
      name ∈ declaredNames body ∨ name ∈ f.globalNames := by
  have hglobal : (lookupVariable name f.scope.layers).isSome = true ↔ name ∈ f.globalNames := by
    show ((f.scope.own.bindings.get? name).or none).isSome = true ↔ _
    unfold scope globalNames
    rw [Option.or_none, Scope.get?_ofBody, Option.isSome_map, lookupVariable, lookupVariable,
      Option.or_none, ← Table.mem_names_iff, Layer.mem_names_ofBody]
  unfold domainScope
  rw [Scope.get?_ofBody, Option.isSome_map, lookupVariable, Option.isSome_or, Bool.or_eq_true,
    hglobal, ← Table.mem_names_iff, Layer.mem_names_ofBody]

/-- The directives of a domain block have its own names and the global ones. -/
theorem definesDirective_settled (f : RuleFile) (body : List Statement) (name : String) :
    definesDirective (f.domainScope body).own.settled name = true ↔
      Writes name body ∨ Writes name f.body := by
  -- putting values in keeps names, and what is hidden is hidden by a directive of its name
  rw [settled_domainScope, definesDirective_substitute, definesDirective_append, Bool.or_comm,
    ← definesDirective_append, definesDirective_append_filter, definesDirective_append,
    Bool.or_eq_true]
  rfl

/-! ### The entry of a host -/

/-- **The first block with a definition decides.**  If a domain block that names a host defines
a variable or a directive itself, the host has the definition of the first block that does so;
but if the global block has one too, it has the definition of the first block that names the
host, which may be the inherited one.  A definition that a later block inherits never counts,
and inside a block its own definitions hide the inherited ones. -/
theorem resolve_own_first (passthrough : String) {host : String}
    (h : block ∈ f.blocksNaming host) :
    ∃ d, (f.resolve passthrough).get? host = some d ∧
      (∀ name, (∃ b ∈ f.blocksNaming host, name ∈ declaredNames b.2) →
        ∃ b, Decides (name ∈ f.globalNames) (name ∈ declaredNames ·.2) (f.blocksNaming host) b ∧
          d.bindings.get? name = (f.domainScope b.2).own.bindings.get? name) ∧
      (∀ name, (∃ b ∈ f.blocksNaming host, Writes name b.2) →
        ∃ b, Decides (Writes name f.body) (Writes name ·.2) (f.blocksNaming host) b ∧
          named name d.directives = named name (f.domainScope b.2).own.settled) ∧
      ∀ b ∈ f.blocksNaming host, f.OwnWins b := by
  obtain ⟨hblock, hhost⟩ := List.mem_filter.mp h
  -- the host is named by a block, so it has an entry
  have hentry := (isSome_get?_resolve passthrough host f).mpr
    (Or.inl ⟨block, hblock, of_decide_eq_true hhost⟩)
  obtain ⟨d, hd⟩ := Option.isSome_iff_exists.mp hentry
  have hdescribes := describes_of_get? hd
  refine ⟨d, hd, ?_, ?_, fun b _ => f.ownWins b⟩
  · intro name hname
    obtain ⟨b, hb⟩ := Decides.exists_of_local (name ∈ f.globalNames) hname
    refine ⟨b, hb, ?_⟩
    rw [hdescribes.bindings]
    exact hb.findSome?_eq fun c => isSome_get?_domainScope f c.2 name
  · intro name hname
    obtain ⟨b, hb⟩ := Decides.exists_of_local (Writes name f.body) hname
    refine ⟨b, hb, ?_⟩
    rw [hdescribes.directives]
    exact hb.named_firstDefined fun c => definesDirective_settled f c.2 name

end RuleFile

end

namespace RuleFile

/-- Two blocks for one host, with variables and directives of their own and of the file. -/
def repeatedSample : RuleFile where
  body := [
    .declare "$a" (.scalar (.string "1")), .call "log" [.string "all"],
    .domain ["d.com", "x.com"] [.declare "$a" (.scalar (.string "2"))],
    .domain ["d.com"] [.declare "$a" (.scalar (.string "3")),
      .declare "$b" (.scalar (.string "$a")),
      .call "root" [.string "$b"], .call "root" [.string "$a$b"]]]

theorem resolve_own_first_repeatedSample :
    ((["d.com", "x.com"], [.declare "$a" (.scalar (.string "2"))]) ∈
        repeatedSample.blocksNaming "d.com" ∧
      (∃ b ∈ repeatedSample.blocksNaming "d.com", "$a" ∈ declaredNames b.2) ∧
      ∃ b ∈ repeatedSample.blocksNaming "d.com", Writes "root" b.2) ∧
    ∃ d, (repeatedSample.resolve "to").get? "d.com" = some d ∧
      (∃ b, Decides ("$a" ∈ repeatedSample.globalNames) ("$a" ∈ declaredNames ·.2)
          (repeatedSample.blocksNaming "d.com") b ∧
        d.bindings.get? "$a" = (repeatedSample.domainScope b.2).own.bindings.get? "$a") ∧
      ∃ b, Decides (Writes "root" repeatedSample.body) (Writes "root" ·.2)
          (repeatedSample.blocksNaming "d.com") b ∧
        named "root" d.directives = named "root" (repeatedSample.domainScope b.2).own.settled := by
  have hblocks : repeatedSample.blocksNaming "d.com" = domainBlocks repeatedSample.body := by
    unfold blocksNaming
    exact List.filter_eq_self.mpr (by decide +kernel)
  have hblock : (["d.com", "x.com"], [.declare "$a" (.scalar (.string "2"))]) ∈
      repeatedSample.blocksNaming "d.com" := by
    rw [hblocks]
    exact List.mem_cons_self
  have hvariable : ∃ b ∈ repeatedSample.blocksNaming "d.com", "$a" ∈ declaredNames b.2 := by
    decide +kernel
  have hdirective : ∃ b ∈ repeatedSample.blocksNaming "d.com", Writes "root" b.2 := by
    decide +kernel
  obtain ⟨d, hd, hvariables, hdirectives, -⟩ := resolve_own_first "to" hblock
  exact ⟨⟨hblock, hvariable, hdirective⟩, d, hd, hvariables "$a" hvariable,
    hdirectives "root" hdirective⟩

/-- A host with two blocks, of which only the second one defines what the file defines too. -/
def laterOwnSample : String :=
  "set $a global\nlog global\ndomain d.com \x7b\x7d\n" ++
  "domain d.com \x7b\nset $a local\nlog local\n\x7d"

/-- The definitions that the first block inherits are those of the host, although another block
that names the host has definitions of its own. -/
theorem inherited_hides_later_own : ∃ f, parse laterOwnSample = .ok f ∧
    (∃ b ∈ f.blocksNaming "d.com", "$a" ∈ declaredNames b.2 ∧ Writes "log" b.2) ∧
    (∀ b ∈ f.blocksNaming "d.com", "$a" ∈ declaredNames b.2 →
      ((f.resolve "proxy_pass").get? "d.com").bind (·.bindings.get? "$a") ≠
        (f.domainScope b.2).own.bindings.get? "$a") ∧
    (∀ b ∈ f.blocksNaming "d.com", Writes "log" b.2 →
      ((f.resolve "proxy_pass").get? "d.com").map (fun d => named "log" d.directives) ≠
        some (named "log" (f.domainScope b.2).own.settled)) :=
  exists_parse (by decide +kernel)

end RuleFile

end HostRules
