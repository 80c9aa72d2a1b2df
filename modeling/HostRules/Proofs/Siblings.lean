/-
HostRules/Proofs/Siblings.lean

Blocks that stand side by side do not see each other.  The scope of a body does not depend on
the blocks in it (`Scope.ofBody_congr`), so all domain blocks of a file are resolved in one
scope, whichever of them there are, and so are all location blocks of a domain block.

Design.  The definitions that a file gives of one host are cut at the domain block in question
(`domains_filter_at`): it stands there as often as it names the host, and its rules among those
of the other blocks.  Taking it out leaves the entry of a host that it does not define
(`get?_resolve_without`); another location in it is another location in as many places
(`differAt_resolve`).

Main result: `RuleFile.resolve_siblings`.
-/
import HostRules.Proofs.Hosts
import HostRules.Proofs.Printer
import HostRules.Regex.Standard

namespace HostRules

section

variable [Regex.Dialect]

variable {body body' before after : List Statement}

/-! ### Bodies without their blocks -/

/-- The statements of a body that are not blocks. -/
def withoutBlocks (body : List Statement) : List Statement := body.filter (·.blockKind?.isNone)

theorem withoutBlocks_domain (names : List String) (inner : List Statement) :
    withoutBlocks (before ++ .domain names inner :: after) = withoutBlocks (before ++ after) := by
  simp [withoutBlocks, Statement.blockKind?]

theorem withoutBlocks_location (pattern : LocationPattern) (inner : List Statement) :
    withoutBlocks (before ++ .location pattern inner :: after) =
      withoutBlocks (before ++ after) := by
  simp [withoutBlocks, Statement.blockKind?]

/-- What is said by statements that are not blocks is said without the blocks. -/
theorem filterMap_withoutBlocks {γ : Type} {g : Statement → Option γ}
    (hg : ∀ s, s.blockKind?.isNone = false → g s = none) (body : List Statement) :
    (withoutBlocks body).filterMap g = body.filterMap g := by
  induction body with
  | nil => rfl
  | cons s more ih =>
    cases hs : s.blockKind?.isNone with
    | true =>
      have hin : withoutBlocks (s :: more) = s :: withoutBlocks more := List.filter_cons_of_pos hs
      rw [hin, List.filterMap_cons, List.filterMap_cons, ih]
    | false =>
      have hout : withoutBlocks (s :: more) = withoutBlocks more :=
        List.filter_cons_of_neg (by simp [hs])
      rw [hout, ih, List.filterMap_cons, hg s hs]

/-- The layer of a body does not depend on the blocks in it. -/
theorem Layer.ofBody_congr (h : withoutBlocks body = withoutBlocks body') :
    Layer.ofBody body = Layer.ofBody body' := by
  have hdeclaration : ∀ s : Statement, s.blockKind?.isNone = false → s.declaration? = none := by
    intro s hs
    cases s <;> first | rfl | cases hs
  have hdirective : ∀ s : Statement, s.blockKind?.isNone = false → s.directive? = none := by
    intro s hs
    cases s <;> first | rfl | cases hs
  unfold ofBody
  rw [← filterMap_withoutBlocks hdeclaration body, ← filterMap_withoutBlocks hdirective body, h,
    filterMap_withoutBlocks hdeclaration, filterMap_withoutBlocks hdirective]

theorem Scope.ofBody_congr (h : withoutBlocks body = withoutBlocks body')
    (enclosing : List Layer) : Scope.ofBody enclosing body = Scope.ofBody enclosing body' := by
  unfold ofBody
  rw [Layer.ofBody_congr h]

theorem Scope.rules_congr (h : withoutBlocks body = withoutBlocks body') (s : Scope) :
    s.rules body = s.rules body' := by
  have hrule : ∀ s : Statement, s.blockKind?.isNone = false → s.rule? = none := by
    intro s hs
    cases s <;> first | rfl | cases hs
  unfold rules
  rw [← filterMap_withoutBlocks hrule body, h, filterMap_withoutBlocks hrule]

/-! ### Definitions without their locations -/

namespace Domain

/-- The definition of a host without its locations. -/
def bare (d : Domain) : Domain := { d with locations := [] }

theorem bare_absorb (d e : Domain) : (d.absorb e).bare = d.bare.absorb e.bare := rfl

/-- All but the locations is merged as if there were none. -/
theorem bare_foldl_merge (ds : List Domain) (known : Option Domain) :
    (ds.foldl merge known).map bare = (ds.map bare).foldl merge (known.map bare) := by
  induction ds generalizing known with
  | nil => rfl
  | cons d ds ih =>
    -- merging joins the locations and does not look at them
    have hstep : (merge known d).map bare = merge (known.map bare) d.bare := by
      cases known with
      | none => rfl
      | some k => exact congrArg some (bare_absorb k d)
    rw [List.foldl_cons, List.map_cons, List.foldl_cons, ih, hstep]

/-- Two entries of a host are the same, but `n` of the locations are `l` in the first where they
are `l'` in the second. -/
structure DifferAt (n : Nat) (l l' : Location) (d d' : Domain) : Prop where
  name : d.name = d'.name
  directives : d.directives = d'.directives
  bindings : d.bindings = d'.bindings
  locations : ∃ before left right after,
    d.locations = before ++ ((List.replicate n (left ++ l :: right)).flatten ++ after) ∧
    d'.locations = before ++ ((List.replicate n (left ++ l' :: right)).flatten ++ after)

/-- Definitions of one host that differ in one location, which stands in `n` of them. -/
theorem differAt_foldl_merge {n : Nat} {l l' : Location} {left right : List Location}
    {host : String} {e e' : Domain} {front back : List Domain}
    (hnames : ∀ d ∈ front ++ (List.replicate n e ++ back), d.name = host)
    (hnames' : ∀ d ∈ front ++ (List.replicate n e' ++ back), d.name = host)
    (hbare : e.bare = e'.bare) (hl : e.locations = left ++ l :: right)
    (hl' : e'.locations = left ++ l' :: right) :
    Option.Rel (DifferAt n l l') ((front ++ (List.replicate n e ++ back)).foldl merge none)
      ((front ++ (List.replicate n e' ++ back)).foldl merge none) := by
  -- the merged definitions agree but for their locations, which are those of each, in order
  have hfolds : ((front ++ (List.replicate n e ++ back)).foldl merge none).map bare =
      ((front ++ (List.replicate n e' ++ back)).foldl merge none).map bare := by
    rw [bare_foldl_merge, bare_foldl_merge]
    simp only [List.map_append, List.map_replicate, hbare]
  cases hd : (front ++ (List.replicate n e ++ back)).foldl merge none with
  | none =>
    rw [hd] at hfolds
    rw [Option.map_eq_none_iff.mp hfolds.symm]
    exact .none
  | some d =>
    cases hd' : (front ++ (List.replicate n e' ++ back)).foldl merge none with
    | none =>
      rw [hd, hd'] at hfolds
      cases hfolds
    | some d' =>
      rw [hd, hd'] at hfolds
      have hsame : d.bare = d'.bare := Option.some.inj hfolds
      have hlocations := (of_foldl_merge hd hnames).2.1
      have hlocations' := (of_foldl_merge hd' hnames').2.1
      have hname : d.bare.name = d'.bare.name := by rw [hsame]
      have hdirectives : d.bare.directives = d'.bare.directives := by rw [hsame]
      have hbindings : d.bare.bindings = d'.bare.bindings := by rw [hsame]
      refine .some ⟨hname, hdirectives, hbindings, ?_⟩
      refine ⟨front.flatMap (·.locations), left, right, back.flatMap (·.locations), ?_, ?_⟩
      · rw [hlocations, List.flatMap_append, List.flatMap_append, List.flatMap_replicate, hl]
      · rw [hlocations', List.flatMap_append, List.flatMap_append, List.flatMap_replicate, hl']

end Domain

/-! ### Files with the same outer scope -/

namespace RuleFile

variable {f g : RuleFile} {block block' : List String × List Statement} {host : String}

theorem scope_congr (h : withoutBlocks f.body = withoutBlocks g.body) : f.scope = g.scope :=
  Scope.ofBody_congr h []

theorem domainScope_congr (h : f.scope = g.scope) : f.domainScope = g.domainScope := by
  funext body
  unfold domainScope
  rw [h]

theorem locationScope_congr (h : f.scope = g.scope) : f.locationScope = g.locationScope := by
  funext body inner
  unfold locationScope
  rw [domainScope_congr h]

theorem hosts_congr (h : f.scope = g.scope) : f.hosts = g.hosts := by
  funext block
  unfold hosts
  rw [domainScope_congr h]

theorem locations_congr (h : f.scope = g.scope) : f.locations = g.locations := by
  funext block
  unfold locations
  rw [locationScope_congr h]

theorem blockRules_congr (h : f.scope = g.scope) : f.blockRules = g.blockRules := by
  funext block
  unfold blockRules
  rw [domainScope_congr h, locationScope_congr h]

theorem definition_congr (h : f.scope = g.scope) : f.definition = g.definition := by
  funext host block
  unfold definition
  rw [domainScope_congr h, locations_congr h]

/-! ### One domain block among the others -/

/-- The file with a domain block between other statements. -/
def withBlock (before after : List Statement) (block : List String × List Statement) : RuleFile :=
  ⟨before ++ .domain block.1 block.2 :: after⟩

/-- A domain block of a file names a host or has a rule for it. -/
def Defines (f : RuleFile) (block : List String × List Statement) (host : String) : Prop :=
  host ∈ f.hosts block ∨ ∃ r ∈ f.blockRules block, r.host = host

instance (f : RuleFile) (block : List String × List Statement) (host : String) :
    Decidable (f.Defines block host) :=
  @instDecidableOr _ _ inferInstance (List.decidableBEx _ _)

theorem scope_withBlock (before after : List Statement) (block : List String × List Statement) :
    (withBlock before after block).scope = (RuleFile.mk (before ++ after)).scope :=
  scope_congr (withoutBlocks_domain block.1 block.2)

theorem domainBlocks_withBlock :
    domainBlocks (withBlock before after block).body =
      domainBlocks before ++ block :: domainBlocks after := by
  unfold domainBlocks withBlock
  rw [List.filterMap_append, List.filterMap_cons]
  rfl

/-- The rules of a file, cut at one of its domain blocks. -/
theorem rules_withBlock (hf : f = withBlock before after block) :
    f.rules = f.scope.rules (before ++ after) ++ ((domainBlocks before).flatMap f.blockRules ++
      (f.blockRules block ++ (domainBlocks after).flatMap f.blockRules)) := by
  subst hf
  have hown : withoutBlocks (withBlock before after block).body =
      withoutBlocks (before ++ after) := withoutBlocks_domain block.1 block.2
  rw [rules, Scope.rules_congr hown, domainBlocks_withBlock, List.flatMap_append,
    List.flatMap_cons]

/-- The definitions of a host by the domain blocks in a body, one for each time that a block
names the host. -/
def definitionsIn (f : RuleFile) (host : String) (body : List Statement) : List Domain :=
  (domainBlocks body).flatMap fun block =>
    List.replicate ((f.hosts block).count host) (f.definition host block)

/-- The definitions of a host, cut at a domain block. -/
theorem domains_filter_at (passthrough host : String) (hf : f = withBlock before after block) :
    (f.domains passthrough).filter (·.name == host) =
      f.definitionsIn host before ++
        (List.replicate ((f.hosts block).count host) (f.definition host block) ++
          (f.definitionsIn host after ++
            (f.rules.filter (·.host == host)).map (·.expand passthrough))) := by
  have hblocks : domainBlocks f.body = domainBlocks before ++ block :: domainBlocks after := by
    rw [hf]
    exact domainBlocks_withBlock
  rw [domains_filter]
  unfold namings definitionsIn
  rw [hblocks, List.flatMap_append, List.flatMap_cons]
  simp only [List.map_append, List.map_flatMap, List.map_replicate, List.append_assoc]

/-- Without a domain block that does not define it, a host has the same definitions. -/
theorem domains_filter_without (passthrough : String) (hf : f = withBlock before after block)
    (hg : g = ⟨before ++ after⟩) (h : ¬ f.Defines block host) :
    (f.domains passthrough).filter (·.name == host) =
      (g.domains passthrough).filter (·.name == host) := by
  have hscope : f.scope = g.scope := by
    rw [hf, hg]
    exact scope_withBlock before after block
  have hcount : (f.hosts block).count host = 0 := List.count_eq_zero.mpr fun hmem => h (.inl hmem)
  have hnone : (f.blockRules block).filter (·.host == host) = [] :=
    List.filter_eq_nil_iff.mpr fun r hr heq => h (.inr ⟨r, hr, eq_of_beq heq⟩)
  have hblocks : domainBlocks g.body = domainBlocks before ++ domainBlocks after := by
    rw [hg]
    exact List.filterMap_append
  -- the block between them gives no rule for the host
  have hrules : f.rules.filter (·.host == host) = g.rules.filter (·.host == host) := by
    have hother : g.rules = f.scope.rules (before ++ after) ++
        ((domainBlocks before).flatMap f.blockRules ++
          (domainBlocks after).flatMap f.blockRules) := by
      rw [rules, hblocks, List.flatMap_append, ← hscope, ← blockRules_congr hscope, hg]
    rw [rules_withBlock hf, hother]
    simp only [List.filter_append, hnone, List.nil_append]
  rw [domains_filter_at passthrough host hf, domains_filter, hcount, hrules]
  unfold namings definitionsIn
  rw [hblocks, hosts_congr hscope, definition_congr hscope]
  simp [List.map_flatMap]

/-- Taking out a domain block that does not define a host leaves the host's entry. -/
theorem get?_resolve_without (passthrough : String)
    (h : ¬ (withBlock before after block).Defines block host) :
    ((withBlock before after block).resolve passthrough).get? host =
      ((RuleFile.mk (before ++ after)).resolve passthrough).get? host := by
  unfold resolve
  rw [Config.get?_ofDomains, Config.get?_ofDomains, domains_filter_without passthrough rfl rfl h]

/-! ### One location block among the others -/

/-- A body with a location block between other statements. -/
def withLocation (front back : List Statement) (l : LocationPattern × List Statement) :
    List Statement :=
  front ++ .location l.1 l.2 :: back

variable {front back : List Statement} {l l' : LocationPattern × List Statement}

theorem locationBlocks_withLocation :
    locationBlocks (withLocation front back l) =
      locationBlocks front ++ l :: locationBlocks back := by
  unfold locationBlocks withLocation
  rw [List.filterMap_append, List.filterMap_cons]
  rfl

theorem withoutBlocks_withLocation (l l' : LocationPattern × List Statement) :
    withoutBlocks (withLocation front back l) = withoutBlocks (withLocation front back l') := by
  unfold withLocation
  rw [withoutBlocks_location, withoutBlocks_location]

theorem domainScope_withLocation (f : RuleFile) (l l' : LocationPattern × List Statement) :
    f.domainScope (withLocation front back l) = f.domainScope (withLocation front back l') :=
  Scope.ofBody_congr (withoutBlocks_withLocation l l') _

theorem locationScope_withLocation (f : RuleFile) (l l' : LocationPattern × List Statement) :
    f.locationScope (withLocation front back l) = f.locationScope (withLocation front back l') := by
  funext inner
  unfold locationScope
  rw [domainScope_withLocation f l l']

theorem hosts_withLocation (f : RuleFile) (names : List String)
    (l l' : LocationPattern × List Statement) :
    f.hosts (names, withLocation front back l) = f.hosts (names, withLocation front back l') := by
  unfold hosts
  rw [domainScope_withLocation f l l']

/-- Location blocks without rules do not change the rules of the domain block. -/
theorem blockRules_withLocation (f : RuleFile) (names : List String)
    (hl : l.2.filterMap Statement.rule? = []) (hl' : l'.2.filterMap Statement.rule? = []) :
    f.blockRules (names, withLocation front back l) =
      f.blockRules (names, withLocation front back l') := by
  -- the two location blocks have scopes of their own, but no rules to put values into
  have hnone : ∀ s : Scope, s.rules l.2 = [] ∧ s.rules l'.2 = [] := by
    intro s
    unfold Scope.rules
    rw [hl, hl']
    exact ⟨rfl, rfl⟩
  unfold blockRules
  simp only [locationBlocks_withLocation, List.flatMap_append, List.flatMap_cons, hnone]
  rw [domainScope_withLocation f l l', locationScope_withLocation f l l',
    Scope.rules_congr (withoutBlocks_withLocation l l')]

theorem bare_definition_withLocation (f : RuleFile) (host : String) (names : List String) :
    (f.definition host (names, withLocation front back l)).bare =
      (f.definition host (names, withLocation front back l')).bare := by
  unfold definition Domain.bare
  rw [domainScope_withLocation f l l']

theorem locations_withLocation (f : RuleFile) (names : List String) :
    f.locations (names, withLocation front back l) =
      (locationBlocks front).map (fun m =>
        (f.locationScope (withLocation front back l) m.2).location m.1) ++
      (f.locationScope (withLocation front back l) l.2).location l.1 ::
      (locationBlocks back).map (fun m =>
        (f.locationScope (withLocation front back l) m.2).location m.1) := by
  unfold locations
  rw [locationBlocks_withLocation, List.map_append, List.map_cons]

/-- Another location block in a domain block, neither with a rule, is another location as often
as the domain block names the host, and nothing else. -/
theorem differAt_resolve (passthrough host : String) (names : List String)
    (hf : f = withBlock before after (names, withLocation front back l))
    (hg : g = withBlock before after (names, withLocation front back l'))
    (hl : l.2.filterMap Statement.rule? = []) (hl' : l'.2.filterMap Statement.rule? = []) :
    Option.Rel
      (Domain.DifferAt ((f.hosts (names, withLocation front back l)).count host)
        ((f.locationScope (withLocation front back l) l.2).location l.1)
        ((g.locationScope (withLocation front back l') l'.2).location l'.1))
      ((f.resolve passthrough).get? host) ((g.resolve passthrough).get? host) := by
  have hscope : g.scope = f.scope := by
    rw [hf, hg, scope_withBlock, scope_withBlock]
  have hrules : g.rules = f.rules := by
    rw [rules_withBlock hf, rules_withBlock hg, hscope, blockRules_congr hscope,
      blockRules_withLocation f names hl hl']
  have hdefinitions : (f.domains passthrough).filter (·.name == host) = _ :=
    domains_filter_at passthrough host hf
  have hdefinitions' : (g.domains passthrough).filter (·.name == host) = _ :=
    domains_filter_at passthrough host hg
  -- both files give the same definitions but for those of the block with the location
  have hother : ∀ body, g.definitionsIn host body = f.definitionsIn host body := by
    intro body
    unfold definitionsIn
    rw [hosts_congr hscope, definition_congr hscope]
  rw [hother, hother, hrules, hosts_congr hscope, definition_congr hscope,
    hosts_withLocation f names l' l] at hdefinitions'
  have hname : ∀ r : RuleFile, ∀ d ∈ (r.domains passthrough).filter (·.name == host),
      d.name = host := by
    intro r d hd
    exact eq_of_beq (List.mem_filter.mp hd).2
  have hnames := hname f
  have hnames' := hname g
  rw [hdefinitions] at hnames
  rw [hdefinitions'] at hnames'
  unfold resolve
  rw [Config.get?_ofDomains, Config.get?_ofDomains, hdefinitions, hdefinitions',
    locationScope_congr hscope]
  refine Domain.differAt_foldl_merge hnames hnames' (bare_definition_withLocation f host names)
    (locations_withLocation f names) ?_
  show f.locations _ = _
  rw [locations_withLocation f names, locationScope_withLocation f l' l]

/-- **Siblings do not interfere.**  A host that neither a domain block nor the one in its place
defines has the same entry with either of them and without; and another location block in a
domain block, neither with a rule, changes in every entry nothing but the location it resolves
to, which the entry has as often as the block names the host. -/
theorem resolve_siblings (passthrough : String) (before after : List Statement) :
    (∀ block block' host, ¬ (withBlock before after block).Defines block host →
      ¬ (withBlock before after block').Defines block' host →
      ((withBlock before after block').resolve passthrough).get? host =
          ((withBlock before after block).resolve passthrough).get? host ∧
        ((RuleFile.mk (before ++ after)).resolve passthrough).get? host =
          ((withBlock before after block).resolve passthrough).get? host) ∧
    ∀ names front back l l' host, l.2.filterMap Statement.rule? = [] →
      l'.2.filterMap Statement.rule? = [] →
      let body := withLocation front back l
      let body' := withLocation front back l'
      let f := withBlock before after (names, body)
      let f' := withBlock before after (names, body')
      Option.Rel
        (Domain.DifferAt ((f.hosts (names, body)).count host)
          ((f.locationScope body l.2).location l.1) ((f'.locationScope body' l'.2).location l'.1))
        ((f.resolve passthrough).get? host) ((f'.resolve passthrough).get? host) := by
  constructor
  · intro block block' host h h'
    have hwithout := get?_resolve_without passthrough h
    have hwithout' := get?_resolve_without passthrough h'
    exact ⟨hwithout'.trans hwithout.symm, hwithout.symm⟩
  · intro names front back l l' host hl hl'
    exact differAt_resolve passthrough host names rfl rfl hl hl'

end RuleFile

end

namespace RuleFile

/-- A domain block with a variable that hides one around it, a location block and a rule. -/
def hidingBlock (l : LocationPattern × List Statement) : List String × List Statement :=
  (["b.com", "$v.com", "b.com"], withLocation [.declare "$v" (.scalar (.string "b"))]
    [.rule (.string "c.com/x") (.string "$v")] l)

/-- A file with a host that uses the variable, and a block before it. -/
def besideBlock (block : List String × List Statement) : RuleFile :=
  withBlock [.declare "$v" (.scalar (.string "1"))]
    [.domain ["a.com"] [.call "log" [.string "$v"]]] block

theorem resolve_siblings_besideBlock :
    let block := hidingBlock (.path "/$v", [])
    let block' := hidingBlock (.path "/x", [.call "log" [.string "$v"]])
    (¬ (besideBlock block).Defines block "a.com" ∧
      ¬ (besideBlock (["$v.com"], [])).Defines (["$v.com"], []) "a.com" ∧
      ((besideBlock (["$v.com"], [])).resolve "to").get? "a.com" =
        ((besideBlock block).resolve "to").get? "a.com" ∧
      (((besideBlock block).resolve "to").get? "a.com").isSome = true) ∧
    (((besideBlock block).resolve "to").get? "b.com").isSome = true ∧
    Option.Rel
      (Domain.DifferAt 3 ⟨.path "/b", false, [], (∅ : Bindings).insert "$v" (.scalar "b")⟩
        ⟨.path "/x", false, [⟨"log", ["b"]⟩], (∅ : Bindings).insert "$v" (.scalar "b")⟩)
      (((besideBlock block).resolve "to").get? "b.com")
      (((besideBlock block').resolve "to").get? "b.com") := by
  intro block block'
  have hother : ¬ (besideBlock block).Defines block "a.com" := by decide +kernel
  have hother' : ¬ (besideBlock (["$v.com"], [])).Defines (["$v.com"], []) "a.com" := by
    decide +kernel
  have hcount : ((besideBlock block).hosts block).count "b.com" = 3 := by decide +kernel
  have hlocation : ((besideBlock block).locationScope block.2 []).location (.path "/$v") =
      ⟨.path "/b", false, [], (∅ : Bindings).insert "$v" (.scalar "b")⟩ := by decide +kernel
  have hlocation' : ((besideBlock block').locationScope block'.2
      [.call "log" [.string "$v"]]).location (.path "/x") =
      ⟨.path "/x", false, [⟨"log", ["b"]⟩], (∅ : Bindings).insert "$v" (.scalar "b")⟩ := by
    decide +kernel
  obtain ⟨hblocks, hlocations⟩ := resolve_siblings "to" [.declare "$v" (.scalar (.string "1"))]
    [.domain ["a.com"] [.call "log" [.string "$v"]]]
  refine ⟨⟨hother, hother', (hblocks block _ "a.com" hother hother').1, by decide +kernel⟩,
    by decide +kernel, ?_⟩
  rw [← hcount, ← hlocation, ← hlocation']
  exact hlocations ["b.com", "$v.com", "b.com"] [.declare "$v" (.scalar (.string "b"))]
    [.rule (.string "c.com/x") (.string "$v")] (.path "/$v", [])
    (.path "/x", [.call "log" [.string "$v"]]) "b.com" rfl rfl

end RuleFile

end HostRules
