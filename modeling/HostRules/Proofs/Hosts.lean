/-
HostRules/Proofs/Hosts.lean

What resolving makes of each host.  The definitions of all hosts are added one by one to a
table, so the entry of one host is a fold of `Domain.absorb` over the definitions that have
its name (`get?_ofDomains`), and each field of such a fold has a form without the fold: the
locations are concatenated, of a variable the first value counts, and of the directives
those stay that no definition before has (`firstDefined`).

Design.  The right-hand sides are written in terms of the file: its domain blocks in order,
the hosts and the locations of a block, and the rules in the order global block, domain
block, location blocks of the domain block.  A block that names a host twice gives its
locations twice, but its variables and directives only once; this is
`firstDefined_repeated`.
-/
import HostRules.Resolve

namespace HostRules

/-! ### Directives that came first -/

/-- The directives of some lists in turn, those left out whose name a list before has; the
directives `seen` stand before all of them. -/
def firstDefined : (seen : List Directive) → List (List Directive) → List Directive
  | _, [] => []
  | seen, ds :: more => ds.filter (!definesDirective seen ·.name) ++ firstDefined (seen ++ ds) more

theorem definesDirective_append (ds es : List Directive) (name : String) :
    definesDirective (ds ++ es) name = (definesDirective ds name || definesDirective es name) :=
  List.any_append

theorem definesDirective_of_mem {ds : List Directive} {d : Directive} (h : d ∈ ds) :
    definesDirective ds d.name = true :=
  List.any_eq_true.mpr ⟨d, h, beq_self_eq_true _⟩

/-- Directives that are left out because their name is known do not change which names are
known. -/
theorem definesDirective_append_filter (ds es : List Directive) (name : String) :
    definesDirective (ds ++ es.filter (!definesDirective ds ·.name)) name =
      definesDirective (ds ++ es) name := by
  rw [definesDirective_append, definesDirective_append]
  cases hd : definesDirective ds name with
  | true => rfl
  | false =>
    rw [Bool.false_or, Bool.false_or, Bool.eq_iff_iff]
    unfold definesDirective
    rw [List.any_eq_true, List.any_eq_true]
    constructor
    · rintro ⟨d, hmem, heq⟩
      exact ⟨d, (List.mem_filter.mp hmem).1, heq⟩
    · rintro ⟨d, hmem, heq⟩
      refine ⟨d, List.mem_filter.mpr ⟨hmem, ?_⟩, heq⟩
      show (!definesDirective ds d.name) = true
      rw [eq_of_beq heq, hd]
      rfl

/-- Only the names of what came before count. -/
theorem firstDefined_congr {seen seen' : List Directive}
    (h : ∀ name, definesDirective seen name = definesDirective seen' name)
    (lists : List (List Directive)) : firstDefined seen lists = firstDefined seen' lists := by
  induction lists generalizing seen seen' with
  | nil => rfl
  | cons ds more ih =>
    have hfilter : ds.filter (!definesDirective seen ·.name) =
        ds.filter (!definesDirective seen' ·.name) := by
      congr 1
      funext d
      rw [h]
    have hmore : firstDefined (seen ++ ds) more = firstDefined (seen' ++ ds) more := by
      refine ih fun name => ?_
      rw [definesDirective_append, definesDirective_append, h]
    rw [firstDefined, firstDefined, hfilter, hmore]

theorem firstDefined_append (seen : List Directive) (lists lists' : List (List Directive)) :
    firstDefined seen (lists ++ lists') =
      firstDefined seen lists ++ firstDefined (seen ++ lists.flatten) lists' := by
  induction lists generalizing seen with
  | nil => simp [firstDefined]
  | cons ds more ih =>
    rw [List.cons_append, firstDefined, firstDefined, ih, List.flatten_cons, List.append_assoc,
      List.append_assoc]

/-- A list adds nothing when all its names are known. -/
theorem firstDefined_known {seen ds : List Directive}
    (h : ∀ d ∈ ds, definesDirective seen d.name = true) (more : List (List Directive)) :
    firstDefined seen (ds :: more) = firstDefined seen more := by
  have hnone : ds.filter (!definesDirective seen ·.name) = [] := by
    refine List.filter_eq_nil_iff.mpr fun d hd => ?_
    rw [h d hd]
    decide
  have hsame : firstDefined (seen ++ ds) more = firstDefined seen more := by
    refine firstDefined_congr (fun name => ?_) more
    rw [← definesDirective_append_filter, hnone, List.append_nil]
  rw [firstDefined, hnone, List.nil_append, hsame]

theorem firstDefined_of_empty {lists : List (List Directive)} (h : ∀ ds ∈ lists, ds = [])
    (seen : List Directive) : firstDefined seen lists = [] := by
  induction lists generalizing seen with
  | nil => rfl
  | cons ds more ih =>
    rw [h ds List.mem_cons_self, firstDefined, ih fun es hes => h es (List.mem_cons_of_mem _ hes)]
    rfl

/-- A list that stands there several times counts once. -/
theorem firstDefined_repeated (seen ds : List Directive) (n : Nat)
    (more : List (List Directive)) :
    firstDefined seen (List.replicate (n + 1) ds ++ more) = firstDefined seen (ds :: more) := by
  induction n generalizing more with
  | zero => rfl
  | succ n ih =>
    -- the last copy stands behind another one, where all its names are known
    have hknown : ∀ d ∈ ds, definesDirective (seen ++ ds) d.name = true := by
      intro d hd
      rw [definesDirective_append, definesDirective_of_mem hd, Bool.or_true]
    rw [List.replicate_succ', List.append_assoc, List.singleton_append, ih, firstDefined,
      firstDefined_known hknown, ← firstDefined]

/-- Lists that stand there any number of times count as if those that stand there at all did
so once. -/
theorem firstDefined_flatMap_replicate {β : Type} (lists : β → List Directive) (times : β → Nat)
    (seen : List Directive) (bs : List β) :
    firstDefined seen (bs.flatMap fun b => List.replicate (times b) (lists b)) =
      firstDefined seen ((bs.filter (times · != 0)).map lists) := by
  induction bs generalizing seen with
  | nil => rfl
  | cons b bs ih =>
    rw [List.flatMap_cons]
    cases hb : times b with
    | zero =>
      have hout : (b :: bs).filter (times · != 0) = bs.filter (times · != 0) :=
        List.filter_cons_of_neg (by simp [hb])
      rw [hout, List.replicate_zero, List.nil_append, ih]
    | succ n =>
      have hin : (b :: bs).filter (times · != 0) = b :: bs.filter (times · != 0) :=
        List.filter_cons_of_pos (by simp [hb])
      rw [hin, firstDefined_repeated, List.map_cons, firstDefined, firstDefined, ih]

theorem RuleFile.count_ne_zero (host : String) (hosts : List String) :
    (hosts.count host != 0) = decide (host ∈ hosts) := by
  rw [Bool.eq_iff_iff, bne_iff_ne, decide_eq_true_iff, ← Nat.pos_iff_ne_zero]
  exact List.count_pos_iff

variable [Regex.Dialect]

/-! ### Definitions of one host, merged -/

/-- Adds a definition of a host to what is known of it. -/
def Domain.merge (known : Option Domain) (d : Domain) : Option Domain :=
  some ((known.map (·.absorb d)).getD d)

namespace Config

theorem get?_foldl_add (ds : List Domain) (c : Config) (host : String) :
    (ds.foldl add c).get? host =
      (ds.filter (·.name == host)).foldl Domain.merge (c.get? host) := by
  induction ds generalizing c with
  | nil => rfl
  | cons d ds ih =>
    rw [List.foldl_cons, ih, get?_add]
    -- a definition of another host does not touch the entry
    by_cases h : d.name = host
    · have hin : (d :: ds).filter (·.name == host) = d :: ds.filter (·.name == host) :=
        List.filter_cons_of_pos (by simp [h])
      rw [hin, if_pos h.symm, List.foldl_cons, h]
      rfl
    · have hout : (d :: ds).filter (·.name == host) = ds.filter (·.name == host) :=
        List.filter_cons_of_neg (by simp [h])
      rw [hout, if_neg (Ne.symm h)]

/-- The entry of a host comes from the definitions that have its name, and from them alone. -/
theorem get?_ofDomains (ds : List Domain) (host : String) :
    (ofDomains ds).get? host = (ds.filter (·.name == host)).foldl Domain.merge none :=
  get?_foldl_add ds ∅ host

end Config

namespace Domain

theorem foldl_merge_some (ds : List Domain) (d : Domain) :
    ds.foldl merge (some d) = some (ds.foldl absorb d) := by
  induction ds generalizing d with
  | nil => rfl
  | cons e ds ih =>
    rw [List.foldl_cons, List.foldl_cons, ← ih]
    rfl

theorem foldl_merge_isSome_iff (ds : List Domain) :
    (ds.foldl merge none).isSome = true ↔ ds ≠ [] := by
  cases ds with
  | nil => simp
  | cons d ds =>
    rw [List.foldl_cons]
    exact ⟨fun _ => List.cons_ne_nil d ds, fun _ => by rw [merge, foldl_merge_some]; rfl⟩

theorem name_foldl_absorb (ds : List Domain) (d : Domain) :
    (ds.foldl absorb d).name = d.name := by
  induction ds generalizing d with
  | nil => rfl
  | cons e ds ih =>
    rw [List.foldl_cons, ih]
    rfl

/-- All locations stay, in their order. -/
theorem locations_foldl_absorb (ds : List Domain) (d : Domain) :
    (ds.foldl absorb d).locations = (d :: ds).flatMap (·.locations) := by
  induction ds generalizing d with
  | nil => simp
  | cons e ds ih =>
    rw [List.foldl_cons, ih, List.flatMap_cons, List.flatMap_cons, List.flatMap_cons,
      ← List.append_assoc]
    rfl

/-- Of a variable the first value stays. -/
theorem get?_foldl_absorb (ds : List Domain) (d : Domain) (name : String) :
    (ds.foldl absorb d).bindings.get? name = (d :: ds).findSome? (·.bindings.get? name) := by
  induction ds generalizing d with
  | nil => cases h : d.bindings.get? name <;> simp [h]
  | cons e ds ih =>
    have hstep : (d.absorb e).bindings.get? name =
        (d.bindings.get? name).or (e.bindings.get? name) :=
      Table.get?_fillFrom d.bindings e.bindings name
    rw [List.foldl_cons, ih, List.findSome?_cons, List.findSome?_cons, List.findSome?_cons, hstep]
    cases d.bindings.get? name <;> rfl

/-- Of the directives those stay whose name is new. -/
theorem directives_foldl_absorb (ds : List Domain) (d : Domain) :
    (ds.foldl absorb d).directives =
      d.directives ++ firstDefined d.directives (ds.map (·.directives)) := by
  induction ds generalizing d with
  | nil => simp [firstDefined]
  | cons e ds ih =>
    have hstep : (d.absorb e).directives =
        d.directives ++ e.directives.filter (!definesDirective d.directives ·.name) := rfl
    -- what is left out of `e` has names of `d`, so for the rest all of `e` may stand there
    rw [List.foldl_cons, ih, hstep, List.map_cons, firstDefined, List.append_assoc]
    congr 2
    exact firstDefined_congr (definesDirective_append_filter d.directives e.directives) _

/-- What the definitions of one host come to, field by field. -/
theorem of_foldl_merge {ds : List Domain} {d : Domain} {host : String}
    (h : ds.foldl merge none = some d) (hname : ∀ e ∈ ds, e.name = host) :
    d.name = host ∧ d.locations = ds.flatMap (·.locations) ∧
      (∀ name, d.bindings.get? name = ds.findSome? (·.bindings.get? name)) ∧
      d.directives = firstDefined [] (ds.map (·.directives)) := by
  cases ds with
  | nil => exact absurd h (by simp)
  | cons e ds =>
    have hd : ds.foldl absorb e = d := by
      rw [List.foldl_cons, merge, foldl_merge_some] at h
      exact Option.some.inj h
    subst hd
    refine ⟨?_, locations_foldl_absorb ds e, get?_foldl_absorb ds e, ?_⟩
    · rw [name_foldl_absorb]
      exact hname e List.mem_cons_self
    · have hall : e.directives.filter (!definesDirective [] ·.name) = e.directives :=
        List.filter_eq_self.mpr fun _ _ => rfl
      rw [directives_foldl_absorb, List.map_cons, firstDefined, hall, List.nil_append]

end Domain

/-! ### What a file says of its hosts -/

namespace RuleFile

/-- The settled scope of a domain block. -/
def domainScope (f : RuleFile) (body : List Statement) : Scope := Scope.ofBody f.scope.layers body

/-- The settled scope of a location block in a domain block. -/
def locationScope (f : RuleFile) (body inner : List Statement) : Scope :=
  Scope.ofBody (f.domainScope body).layers inner

/-- The hosts that a domain block names, with the values of its final scope put in. -/
def hosts (f : RuleFile) (block : List String × List Statement) : List String :=
  block.1.map (f.domainScope block.2).own.bindings.substitution.apply

/-- The location blocks of a domain block, in order. -/
def locations (f : RuleFile) (block : List String × List Statement) : List Location :=
  (locationBlocks block.2).map fun l => (f.locationScope block.2 l.2).location l.1

/-- The rules in a domain block: those of its body, then those of its location blocks. -/
def blockRules (f : RuleFile) (block : List String × List Statement) : List Rule :=
  (f.domainScope block.2).rules block.2 ++
    (locationBlocks block.2).flatMap fun l => (f.locationScope block.2 l.2).rules l.2

/-- All rules: those of the global block, then those of each domain block. -/
def rules (f : RuleFile) : List Rule :=
  f.scope.rules f.body ++ (domainBlocks f.body).flatMap f.blockRules

/-- The domain blocks that name a host, in order. -/
def blocksNaming (f : RuleFile) (host : String) : List (List String × List Statement) :=
  (domainBlocks f.body).filter fun block => decide (host ∈ f.hosts block)

/-- The domain blocks, each as often as it names a host. -/
def namings (f : RuleFile) (host : String) : List (List String × List Statement) :=
  (domainBlocks f.body).flatMap fun block => List.replicate ((f.hosts block).count host) block

/-- What a domain block defines for a host. -/
def definition (f : RuleFile) (host : String) (block : List String × List Statement) : Domain :=
  { name := host
    directives := (f.domainScope block.2).own.settled
    bindings := (f.domainScope block.2).own.bindings
    locations := f.locations block }

/-- The resolved form of a domain block. -/
theorem resolve_block (f : RuleFile) (block : List String × List Statement) :
    HostBlock.resolve f.scope block.1 block.2 =
      { hosts := f.hosts block
        directives := (f.domainScope block.2).own.settled
        bindings := (f.domainScope block.2).own.bindings
        locations := f.locations block
        rules := f.blockRules block } := by
  unfold HostBlock.resolve locations blockRules
  simp only [List.map_map, List.flatMap_map]
  rfl

theorem resolution_blocks (f : RuleFile) :
    f.resolution.blocks = (domainBlocks f.body).map fun block =>
      HostBlock.resolve f.scope block.1 block.2 := rfl

theorem resolution_rules (f : RuleFile) : f.resolution.rules = f.rules := by
  have hblocks : f.resolution.blocks.flatMap (·.rules) =
      (domainBlocks f.body).flatMap f.blockRules := by
    rw [resolution_blocks, List.flatMap_map]
    congr 1
    funext block
    rw [resolve_block]
  unfold rules
  rw [← hblocks]
  rfl

/-- All definitions of a file, those of blocks before those of rules. -/
theorem domains_eq (passthrough : String) (f : RuleFile) :
    f.domains passthrough =
      ((domainBlocks f.body).flatMap fun block =>
        (f.hosts block).map fun host => f.definition host block) ++
      f.rules.map (·.expand passthrough) := by
  unfold domains Resolution.domains
  rw [resolution_rules, resolution_blocks, List.flatMap_map]
  congr 2
  funext block
  rw [resolve_block]
  rfl

/-- The definitions of one host: those of the blocks, each as often as it names the host,
then those of the rules for it. -/
theorem domains_filter (passthrough host : String) (f : RuleFile) :
    (f.domains passthrough).filter (·.name == host) =
      (f.namings host).map (f.definition host) ++
      (f.rules.filter (·.host == host)).map (·.expand passthrough) := by
  rw [domains_eq, List.filter_append, List.filter_flatMap, List.filter_map]
  unfold namings
  rw [List.map_flatMap]
  congr 2
  funext block
  have hnamed : (f.hosts block).filter ((·.name == host) ∘ fun h => f.definition h block) =
      List.replicate ((f.hosts block).count host) host := List.filter_beq host
  rw [List.filter_map, hnamed, List.map_replicate, List.map_replicate]

/-! ### Blocks that name a host several times -/

theorem mem_namings {f : RuleFile} {host : String} {block : List String × List Statement} :
    block ∈ f.namings host ↔ block ∈ domainBlocks f.body ∧ host ∈ f.hosts block := by
  unfold namings
  simp only [List.mem_flatMap, List.mem_replicate, ne_eq, List.count_eq_zero, Decidable.not_not]
  constructor
  · rintro ⟨b, hb, hhost, rfl⟩
    exact ⟨hb, hhost⟩
  · rintro ⟨hb, hhost⟩
    exact ⟨block, hb, hhost, rfl⟩

/-- What is first found in the blocks is found the first time a block names the host. -/
theorem findSome?_namings {γ : Type} (f : RuleFile) (host : String)
    (g : List String × List Statement → Option γ) :
    (f.namings host).findSome? g = (f.blocksNaming host).findSome? g := by
  unfold namings blocksNaming
  induction domainBlocks f.body with
  | nil => rfl
  | cons block blocks ih =>
    rw [List.flatMap_cons, List.findSome?_append, ih]
    by_cases h : host ∈ f.hosts block
    · have hin : (block :: blocks).filter (fun block => decide (host ∈ f.hosts block)) =
          block :: blocks.filter fun block => decide (host ∈ f.hosts block) :=
        List.filter_cons_of_pos (by simpa using h)
      -- the first naming decides; further ones would find the same again
      obtain ⟨n, hn⟩ := Nat.exists_eq_add_one.mpr (List.count_pos_iff.mpr h)
      rw [hin, hn, List.findSome?_cons]
      cases hg : g block with
      | none => simp [hg]
      | some c => simp [List.replicate_succ, hg]
    · have hout : (block :: blocks).filter (fun block => decide (host ∈ f.hosts block)) =
          blocks.filter fun block => decide (host ∈ f.hosts block) :=
        List.filter_cons_of_neg (by simpa using h)
      rw [hout, List.count_eq_zero.mpr h]
      rfl

theorem firstDefined_namings (f : RuleFile) (host : String)
    (lists : List String × List Statement → List Directive) :
    firstDefined [] ((f.namings host).map lists) =
      firstDefined [] ((f.blocksNaming host).map lists) := by
  have hpresent : (fun block => (f.hosts block).count host != 0) =
      fun block => decide (host ∈ f.hosts block) := by
    funext block
    exact count_ne_zero host _
  unfold namings blocksNaming
  rw [List.map_flatMap, ← hpresent, ← firstDefined_flatMap_replicate]
  congr 2
  funext block
  exact List.map_replicate

/-! ### The entry of a host -/

end RuleFile

/-- The location that a rule defines for its host. -/
def Rule.baseLocation (passthrough : String) (r : Rule) : Location :=
  { pattern := .path ("/" ++ String.ofList r.path)
    isBaseRule := true
    directives := []
    bindings := (∅ : Bindings).insert passthrough (.scalar r.target) }

theorem Rule.locations_expand (passthrough : String) (r : Rule) :
    (r.expand passthrough).locations = [r.baseLocation passthrough] := by
  have hpath : String.ofList ('/' :: r.path) = "/" ++ String.ofList r.path := by
    rw [← List.singleton_append, String.ofList_append]
  unfold expand baseLocation
  rw [hpath]

/-- The domain blocks of a body are its statements that are domain blocks. -/
theorem mem_domainBlocks {body : List Statement} {block : List String × List Statement} :
    block ∈ domainBlocks body ↔ .domain block.1 block.2 ∈ body := by
  unfold domainBlocks
  rw [List.mem_filterMap]
  constructor
  · rintro ⟨s, hs, hblock⟩
    cases s with
    | domain names inner =>
      cases hblock
      exact hs
    | location | call | declare | rule => cases hblock
  · intro hs
    exact ⟨_, hs, rfl⟩

/-- The location blocks of a body are its statements that are location blocks. -/
theorem mem_locationBlocks {body : List Statement} {l : LocationPattern × List Statement} :
    l ∈ locationBlocks body ↔ .location l.1 l.2 ∈ body := by
  unfold locationBlocks
  rw [List.mem_filterMap]
  constructor
  · rintro ⟨s, hs, hl⟩
    cases s with
    | location pattern inner =>
      cases hl
      exact hs
    | domain | call | declare | rule => cases hl
  · intro hs
    exact ⟨_, hs, rfl⟩

namespace RuleFile

/-- What the entry of a host holds, in terms of the file: of the domain blocks in its body and the
location blocks in theirs, which are the block statements there (`mem_domainBlocks`,
`mem_locationBlocks`), and of its rules. -/
structure Describes (f : RuleFile) (passthrough host : String) (d : Domain) : Prop where
  name : d.name = host
  /-- All locations of each block, as often as the block names the host, then one for each
  rule of the host. -/
  locations : d.locations =
    ((domainBlocks f.body).flatMap fun block =>
      ((f.hosts block).filter (· == host)).flatMap fun _ => f.locations block) ++
    (f.rules.filter (·.host == host)).map (·.baseLocation passthrough)
  /-- A location that comes from a rule holds the rule's target, and nothing else. -/
  baseRules : ∀ l ∈ d.locations, l.isBaseRule = true → ∃ r ∈ f.rules, r.host = host ∧
    l.directives = [] ∧ l.bindings.entries = [(passthrough, .scalar r.target)]
  /-- Of a variable the first block that has it decides. -/
  bindings : ∀ name, d.bindings.get? name =
    (f.blocksNaming host).findSome? fun block => (f.domainScope block.2).own.bindings.get? name
  /-- A directive stays when no block before has one of its name. -/
  directives : d.directives = firstDefined []
    ((f.blocksNaming host).map fun block => (f.domainScope block.2).own.settled)

variable {passthrough host : String} {f : RuleFile} {d : Domain}

theorem locations_namings :
    (f.namings host).flatMap f.locations =
      (domainBlocks f.body).flatMap fun block =>
        ((f.hosts block).filter (· == host)).flatMap fun _ => f.locations block := by
  unfold namings
  rw [List.flatMap_assoc]
  congr 1
  funext block
  rw [List.filter_beq]
  induction (f.hosts block).count host with
  | zero => rfl
  | succ n ih =>
    rw [List.replicate_succ, List.replicate_succ, List.flatMap_cons, List.flatMap_cons, ih]

theorem baseRules_of_locations
    (h : d.locations = (f.namings host).flatMap f.locations ++
      (f.rules.filter (·.host == host)).map (·.baseLocation passthrough)) :
    ∀ l ∈ d.locations, l.isBaseRule = true → ∃ r ∈ f.rules, r.host = host ∧
      l.directives = [] ∧ l.bindings.entries = [(passthrough, .scalar r.target)] := by
  intro l hl hbase
  rw [h, List.mem_append, List.mem_flatMap, List.mem_map] at hl
  rcases hl with ⟨block, -, hl⟩ | ⟨r, hr, rfl⟩
  · obtain ⟨inner, -, rfl⟩ := List.mem_map.mp hl
    exact absurd hbase (by simp [Scope.location])
  · obtain ⟨hr, hhost⟩ := List.mem_filter.mp hr
    exact ⟨r, hr, eq_of_beq hhost, rfl, rfl⟩

theorem describes_of_get? (h : (f.resolve passthrough).get? host = some d) :
    f.Describes passthrough host d := by
  unfold resolve at h
  rw [Config.get?_ofDomains, domains_filter] at h
  have hnames : ∀ e ∈ (f.namings host).map (f.definition host) ++
      (f.rules.filter (·.host == host)).map (·.expand passthrough), e.name = host := by
    intro e he
    rw [← domains_filter] at he
    exact eq_of_beq (List.mem_filter.mp he).2
  obtain ⟨hname, hlocations, hbindings, hdirectives⟩ := Domain.of_foldl_merge h hnames
  have hall : d.locations = (f.namings host).flatMap f.locations ++
      (f.rules.filter (·.host == host)).map (·.baseLocation passthrough) := by
    rw [hlocations, List.flatMap_append, List.flatMap_map, List.flatMap_map]
    simp only [Rule.locations_expand]
    rw [List.map_eq_flatMap]
    rfl
  refine ⟨hname, hall.trans (by rw [locations_namings]), baseRules_of_locations hall, ?_, ?_⟩
  · intro name
    -- the definition that a rule makes has variables only in its location
    have hrules : ((f.rules.filter (·.host == host)).map (·.expand passthrough)).findSome?
        (·.bindings.get? name) = none := by
      rw [List.findSome?_map]
      exact List.findSome?_eq_none_iff.mpr fun _ _ => rfl
    rw [hbindings, List.findSome?_append, hrules, Option.or_none, List.findSome?_map,
      ← findSome?_namings]
    rfl
  · have hrules : ∀ seen, firstDefined seen (((f.rules.filter (·.host == host)).map
        (·.expand passthrough)).map (·.directives)) = [] := by
      intro seen
      refine firstDefined_of_empty ?_ seen
      rw [List.map_map]
      intro ds hds
      obtain ⟨r, -, rfl⟩ := List.mem_map.mp hds
      rfl
    rw [hdirectives, List.map_append, firstDefined_append, hrules, List.append_nil,
      ← firstDefined_namings, List.map_map]
    rfl

/-- A host has an entry exactly when a domain block or a rule names it. -/
theorem isSome_get?_resolve (passthrough host : String) (f : RuleFile) :
    ((f.resolve passthrough).get? host).isSome = true ↔
      (∃ block ∈ domainBlocks f.body, host ∈ f.hosts block) ∨ ∃ r ∈ f.rules, r.host = host := by
  unfold resolve
  rw [Config.get?_ofDomains, Domain.foldl_merge_isSome_iff, domains_filter]
  constructor
  · intro hne
    obtain ⟨e, he⟩ := List.exists_mem_of_ne_nil _ hne
    rcases List.mem_append.mp he with he | he
    · obtain ⟨block, hblock, -⟩ := List.mem_map.mp he
      obtain ⟨hblock, hhost⟩ := mem_namings.mp hblock
      exact Or.inl ⟨block, hblock, hhost⟩
    · obtain ⟨r, hr, -⟩ := List.mem_map.mp he
      obtain ⟨hr, hhost⟩ := List.mem_filter.mp hr
      exact Or.inr ⟨r, hr, eq_of_beq hhost⟩
  · rintro (⟨block, hblock, hhost⟩ | ⟨r, hr, hhost⟩)
    · exact List.ne_nil_of_mem (List.mem_append_left _
        (List.mem_map_of_mem (mem_namings.mpr ⟨hblock, hhost⟩)))
    · exact List.ne_nil_of_mem (List.mem_append_right _
        (List.mem_map_of_mem (List.mem_filter.mpr ⟨hr, beq_iff_eq.mpr hhost⟩)))

/-- **Resolving loses, doubles and reorders nothing.**  The hosts are those that the domain
blocks and the rules name, and what each host has is written out in `Describes`. -/
theorem resolve_exact (passthrough : String) (f : RuleFile) :
    (∀ host, host ∈ (f.resolve passthrough).names ↔
      (∃ block ∈ domainBlocks f.body, host ∈ f.hosts block) ∨ ∃ r ∈ f.rules, r.host = host) ∧
    ∀ entry ∈ (f.resolve passthrough).entries, f.Describes passthrough entry.1 entry.2 := by
  constructor
  · intro host
    rw [Table.mem_names_iff]
    exact isSome_get?_resolve passthrough host f
  · rintro ⟨host, d⟩ hentry
    exact describes_of_get? (Table.get?_eq_some_iff.mpr hentry)

end RuleFile

end HostRules
