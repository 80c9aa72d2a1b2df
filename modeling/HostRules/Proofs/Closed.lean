/-
HostRules/Proofs/Closed.lean

No reference is left in a resolved file.  A file is asked that all its references are bound
(`RuleFile.ReferencesBound`): names of variables can be told apart, and every text refers to
what is visible where it stands, a value only to what is declared before it or outside.  Then
every text of the result is closed, and a block that does not declare a variable has the
final value of the block around it.

Design.  The three kinds of scope of a file are settled by one and the same step
(`Scope.settled_layers`), from the global block inwards.  What a scope puts its values into is
then closed, and the entry of a host consists of such texts (`RuleFile.Describes`).
-/
import HostRules.Proofs.Hosts
import HostRules.Proofs.Settling
import HostRules.Regex.Standard

namespace HostRules

/-! ### Closed results -/

/-- All items of all values are closed. -/
def Bindings.AllClosed (b : Bindings) : Prop := ∀ e ∈ b.entries, ∀ text ∈ e.2.items, Closed text

/-- All arguments of some directives are closed. -/
def DirectivesClosed (ds : List Directive) : Prop := ∀ d ∈ ds, ∀ text ∈ d.arguments, Closed text

theorem Bindings.allClosed_of_get? {b : Bindings}
    (h : ∀ n v, b.get? n = some v → ∀ text ∈ v.items, Closed text) : b.AllClosed := by
  rintro ⟨n, v⟩ he
  exact h n v (Table.get?_eq_some_iff.mpr he)

theorem Closed.of_subset {text : String} {cs : List Char} (h : Closed text)
    (hsub : cs ⊆ text.toList) : Closed (String.ofList cs) := by
  unfold Closed
  rw [String.toList_ofList]
  exact fun hmem => h (hsub hmem)

theorem mem_firstDefined {seen : List Directive} {lists : List (List Directive)} {d : Directive}
    (h : d ∈ firstDefined seen lists) : ∃ ds ∈ lists, d ∈ ds := by
  -- `seen` grows by the names of a list before the next one is gone through
  induction lists generalizing seen with
  | nil => exact absurd h List.not_mem_nil
  | cons ds more ih =>
    rcases List.mem_append.mp h with h | h
    · exact ⟨ds, List.mem_cons_self, (List.mem_filter.mp h).1⟩
    · obtain ⟨es, hes, hd⟩ := ih h
      exact ⟨es, List.mem_cons_of_mem ds hes, hd⟩

namespace Rule

theorem behindSlashes?_subset {cs rest : List Char} (h : behindSlashes? cs = some rest) :
    rest ⊆ cs := by
  fun_induction behindSlashes? cs with
  | case1 => exact absurd h nofun
  | case2 => exact absurd h nofun
  | case3 c d cs hslash =>
    obtain rfl := Option.some.inj h
    exact fun x hx => List.mem_cons_of_mem c (List.mem_cons_of_mem d hx)
  | case4 c d cs hslash ih => exact fun x hx => List.mem_cons_of_mem c (ih h hx)

theorem address_subset (r : Rule) : r.address ⊆ r.source.toList := by
  unfold address
  cases h : behindSlashes? r.source.toList with
  | none => exact fun x hx => hx
  | some rest => exact behindSlashes?_subset h

theorem closed_host {r : Rule} (h : Closed r.source) : Closed r.host :=
  h.of_subset fun _ hx => r.address_subset ((List.takeWhile_prefix _).subset hx)

end Rule

section

variable [Regex.Dialect]

/-- The path of a location, unless it is a regular expression. -/
def LocationPattern.literal? : LocationPattern → Option String
  | path text => some text
  | regex _ => none

/-- All texts of a location are closed, but for a regular expression. -/
structure Location.AllClosed (l : Location) : Prop where
  pattern : ∀ text ∈ l.pattern.literal?, Closed text
  directives : DirectivesClosed l.directives
  bindings : l.bindings.AllClosed

/-- All texts of a host are closed. -/
structure Domain.AllClosed (d : Domain) : Prop where
  name : Closed d.name
  directives : DirectivesClosed d.directives
  bindings : d.bindings.AllClosed
  locations : ∀ l ∈ d.locations, l.AllClosed

/-! ### Rules -/

namespace Rule

theorem allClosed_baseLocation {r : Rule} (passthrough : String) (hs : Closed r.source)
    (ht : Closed r.target) : (r.baseLocation passthrough).AllClosed where
  pattern := by
    intro text htext
    -- the path is a part of the source, and the slash in front of it refers to nothing
    obtain rfl : "/" ++ String.ofList r.path = text := Option.some.inj htext
    have hpath : Closed (String.ofList r.path) := hs.of_subset fun x hx =>
      r.address_subset ((List.dropWhile_suffix _).subset (List.mem_of_mem_drop hx))
    unfold Closed at hpath ⊢
    rw [String.toList_append, List.mem_append]
    rintro (hmem | hmem)
    · exact absurd hmem (by decide)
    · exact hpath hmem
  directives := fun d hd => absurd hd List.not_mem_nil
  bindings := by
    intro e he text htext
    obtain rfl : e = (passthrough, .scalar r.target) := List.mem_singleton.mp he
    obtain rfl : text = r.target := List.mem_singleton.mp htext
    exact ht

end Rule

/-! ### Files whose references are bound -/

namespace RuleFile

/-- The variables that the global block declares. -/
def globalNames (f : RuleFile) : List String := declaredNames f.body

/-- The variables visible in a domain block. -/
def domainNames (f : RuleFile) (body : List Statement) : List String :=
  declaredNames body ++ f.globalNames

/-- The variables visible in a location block of a domain block. -/
def locationNames (f : RuleFile) (body inner : List Statement) : List String :=
  declaredNames inner ++ f.domainNames body

/-- All variables of a file. -/
def variableNames (f : RuleFile) : List String :=
  f.globalNames ++ (domainBlocks f.body).flatMap fun block =>
    declaredNames block.2 ++ (locationBlocks block.2).flatMap fun l => declaredNames l.2

/-- What is asked of a file: its variables can be told apart, and all its references are to
variables in reach.  The hosts of a block are judged inside the block, like its path. -/
structure ReferencesBound (f : RuleFile) : Prop where
  names : VariableNames f.variableNames
  global : BodyRefers [] f.body
  domains : ∀ block ∈ domainBlocks f.body, BodyRefers f.globalNames block.2
  hosts : ∀ block ∈ domainBlocks f.body, ∀ host ∈ block.1,
    RefersTo (f.domainNames block.2) host
  locations : ∀ block ∈ domainBlocks f.body, ∀ l ∈ locationBlocks block.2,
    BodyRefers (f.domainNames block.2) l.2
  paths : ∀ block ∈ domainBlocks f.body, ∀ l ∈ locationBlocks block.2, ∀ text ∈ l.1.literal?,
    RefersTo (f.locationNames block.2 l.2) text

variable {f : RuleFile} {block : List String × List Statement}
  {l : LocationPattern × List Statement}

namespace ReferencesBound

theorem globalNames_apart (h : f.ReferencesBound) : VariableNames (f.globalNames ++ []) := by
  rw [List.append_nil]
  exact h.names.subset fun _ hn => List.mem_append_left _ hn

theorem domainNames_apart (h : f.ReferencesBound) (hb : block ∈ domainBlocks f.body) :
    VariableNames (f.domainNames block.2) := by
  refine h.names.subset fun n hn => ?_
  rcases List.mem_append.mp hn with hn | hn
  · exact List.mem_append_right _ (List.mem_flatMap.mpr ⟨block, hb, List.mem_append_left _ hn⟩)
  · exact List.mem_append_left _ hn

theorem locationNames_apart (h : f.ReferencesBound) (hb : block ∈ domainBlocks f.body)
    (hl : l ∈ locationBlocks block.2) : VariableNames (f.locationNames block.2 l.2) := by
  -- a name of the location, of its block, or of the global block
  refine h.names.subset fun n hn => ?_
  rcases List.mem_append.mp hn with hn | hn
  · exact List.mem_append_right _ (List.mem_flatMap.mpr
      ⟨block, hb, List.mem_append_right _ (List.mem_flatMap.mpr ⟨l, hl, hn⟩)⟩)
  · rcases List.mem_append.mp hn with hn | hn
    · exact List.mem_append_right _
        (List.mem_flatMap.mpr ⟨block, hb, List.mem_append_left _ hn⟩)
    · exact List.mem_append_left _ hn

/-! ### The scopes of a file -/

theorem settled_global (h : f.ReferencesBound) : Settled f.globalNames f.scope.layers := by
  have hsettled := Scope.settled_layers settled_nil h.global h.globalNames_apart
  rw [List.append_nil] at hsettled
  exact hsettled

theorem settled_domain (h : f.ReferencesBound) (hb : block ∈ domainBlocks f.body) :
    Settled (f.domainNames block.2) (f.domainScope block.2).layers :=
  Scope.settled_layers h.settled_global (h.domains block hb) (h.domainNames_apart hb)

theorem final_global (h : f.ReferencesBound) : f.scope.Final [] f.body (f.globalNames ++ []) :=
  Scope.final_ofBody settled_nil h.global h.globalNames_apart

theorem final_domain (h : f.ReferencesBound) (hb : block ∈ domainBlocks f.body) :
    (f.domainScope block.2).Final f.scope.layers block.2 (f.domainNames block.2) :=
  Scope.final_ofBody h.settled_global (h.domains block hb) (h.domainNames_apart hb)

theorem final_location (h : f.ReferencesBound) (hb : block ∈ domainBlocks f.body)
    (hl : l ∈ locationBlocks block.2) :
    (f.locationScope block.2 l.2).Final (f.domainScope block.2).layers l.2
      (f.locationNames block.2 l.2) :=
  Scope.final_ofBody (h.settled_domain hb) (h.locations block hb l hl)
    (h.locationNames_apart hb hl)

/-- A domain block has the global value of a variable that it does not declare. -/
theorem inherited_domain (h : f.ReferencesBound) (hb : block ∈ domainBlocks f.body)
    {name : String} (hfree : name ∉ declaredNames block.2) :
    (f.domainScope block.2).own.bindings.get? name = f.scope.own.bindings.get? name := by
  rw [(h.final_domain hb).inherited name hfree]
  exact Scope.lookup_layers settled_nil h.global h.globalNames_apart name

/-- A location block has the value of its domain block for a variable that it does not
declare. -/
theorem inherited_location (h : f.ReferencesBound) (hb : block ∈ domainBlocks f.body)
    (hl : l ∈ locationBlocks block.2) {name : String} (hfree : name ∉ declaredNames l.2) :
    (f.locationScope block.2 l.2).own.bindings.get? name =
      (f.domainScope block.2).own.bindings.get? name := by
  rw [(h.final_location hb hl).inherited name hfree]
  exact Scope.lookup_layers h.settled_global (h.domains block hb) (h.domainNames_apart hb) name

/-! ### What a file defines -/

theorem closed_hosts (h : f.ReferencesBound) (hb : block ∈ domainBlocks f.body) :
    ∀ host ∈ f.hosts block, Closed host := by
  intro host hhost
  obtain ⟨written, hwritten, rfl⟩ := List.mem_map.mp hhost
  exact (h.final_domain hb).closed_apply (h.domainNames_apart hb)
    (h.hosts block hb written hwritten)

theorem closed_rules (h : f.ReferencesBound) {r : Rule} (hr : r ∈ f.rules) :
    Closed r.source ∧ Closed r.target := by
  -- a rule is settled by the block it stands in: the global one, a domain block or a location block
  rcases List.mem_append.mp hr with hr | hr
  · exact h.final_global.closed_rules h.globalNames_apart h.global.rules hr
  obtain ⟨block, hb, hr⟩ := List.mem_flatMap.mp hr
  rcases List.mem_append.mp hr with hr | hr
  · exact (h.final_domain hb).closed_rules (h.domainNames_apart hb) (h.domains block hb).rules hr
  obtain ⟨l, hl, hr⟩ := List.mem_flatMap.mp hr
  exact (h.final_location hb hl).closed_rules (h.locationNames_apart hb hl)
    (h.locations block hb l hl).rules hr

theorem allClosed_locations (h : f.ReferencesBound) (hb : block ∈ domainBlocks f.body) :
    ∀ l ∈ f.locations block, l.AllClosed := by
  intro location hlocation
  obtain ⟨⟨pattern, inner⟩, hl, rfl⟩ := List.mem_map.mp hlocation
  have hfinal := h.final_location hb hl
  refine ⟨?_, hfinal.directives, Bindings.allClosed_of_get? hfinal.closed⟩
  intro text htext
  -- only a path is put values into; a regular expression was compiled when it was read
  cases pattern with
  | path written =>
    obtain rfl := Option.some.inj htext
    exact hfinal.closed_apply (h.locationNames_apart hb hl) (h.paths block hb _ hl written rfl)
  | regex r => exact absurd htext nofun

/-- The entry of a host is closed. -/
theorem allClosed_entry (h : f.ReferencesBound) {passthrough host : String} {d : Domain}
    (hd : f.Describes passthrough host d) (hhost : Closed host) : d.AllClosed where
  name := hd.name ▸ hhost
  directives := by
    intro directive hmem
    rw [hd.directives] at hmem
    obtain ⟨ds, hds, hmem⟩ := mem_firstDefined hmem
    obtain ⟨block, hb, rfl⟩ := List.mem_map.mp hds
    exact (h.final_domain (List.mem_filter.mp hb).1).directives directive hmem
  bindings := by
    refine Bindings.allClosed_of_get? fun n v hv => ?_
    rw [hd.bindings] at hv
    obtain ⟨block, hb, hv⟩ := List.exists_of_findSome?_eq_some hv
    exact (h.final_domain (List.mem_filter.mp hb).1).closed n v hv
  locations := by
    intro location hmem
    -- the locations that are written, then those that rules add
    rw [hd.locations, List.mem_append] at hmem
    rcases hmem with hmem | hmem
    · obtain ⟨block, hb, hmem⟩ := List.mem_flatMap.mp hmem
      obtain ⟨-, -, hmem⟩ := List.mem_flatMap.mp hmem
      exact h.allClosed_locations hb location hmem
    · obtain ⟨r, hr, rfl⟩ := List.mem_map.mp hmem
      obtain ⟨hsource, htarget⟩ := h.closed_rules (List.mem_filter.mp hr).1
      exact Rule.allClosed_baseLocation passthrough hsource htarget

end ReferencesBound

/-- **Resolving leaves no reference behind, and inheritance is stable.**  In a file whose
references are bound, all texts of all hosts are closed, and a block has for a variable that
it does not declare the final value of the block around it. -/
theorem resolve_closed (passthrough : String) (f : RuleFile) (h : f.ReferencesBound) :
    (∀ entry ∈ (f.resolve passthrough).entries, Closed entry.1 ∧ entry.2.AllClosed) ∧
    ∀ block ∈ domainBlocks f.body,
      (∀ name, name ∉ declaredNames block.2 →
        (HostBlock.resolve f.scope block.1 block.2).bindings.get? name =
          f.scope.own.bindings.get? name) ∧
      ∀ l ∈ locationBlocks block.2, ∀ name, name ∉ declaredNames l.2 →
        ((f.locationScope block.2 l.2).location l.1).bindings.get? name =
          (HostBlock.resolve f.scope block.1 block.2).bindings.get? name := by
  refine ⟨?_, fun block hb => ⟨fun name hfree => h.inherited_domain hb hfree,
    fun l hl name hfree => h.inherited_location hb hl hfree⟩⟩
  rintro ⟨host, d⟩ hentry
  have hget := Table.get?_eq_some_iff.mpr hentry
  have hnamed := (isSome_get?_resolve passthrough host f).mp (Option.isSome_of_eq_some hget)
  -- every entry is named by a block or by a rule, so its name is closed like theirs
  have hhost : Closed host := by
    rcases hnamed with ⟨block, hb, hhost⟩ | ⟨r, hr, rfl⟩
    · exact h.closed_hosts hb host hhost
    · exact Rule.closed_host (h.closed_rules hr).1
  exact ⟨hhost, h.allClosed_entry (describes_of_get? hget) hhost⟩

end RuleFile

end

namespace RuleFile

/-- A word of a rule file, at no place in particular. -/
def sampleWord (value : String) : Token := ⟨.word, value, ⟨.start, .start⟩⟩

/-- A rule file with three levels of variables that refer to each other. -/
def nestedSample : RuleFile where
  body := [
    .declare "$env" (.scalar (sampleWord "live")),
    .declare "$roots" (.list [sampleWord "/srv/$env", sampleWord "/tmp"]),
    .call "log" [sampleWord "$roots,all"],
    .domain ["$name.example"] [
      .declare "$name" (.scalar (sampleWord "shop-$env")),
      .rule (sampleWord "http://$name.old/$env") (sampleWord "https://$name/"),
      .location (.path "/$name") [
        .declare "$env" (.scalar (sampleWord "test")),
        .declare "$env" (.scalar (sampleWord "/$env:$roots")),
        .call "root" [sampleWord "$env", sampleWord "$name"]]]]

theorem resolve_closed_nestedSample : nestedSample.ReferencesBound ∧
    (∀ entry ∈ (nestedSample.resolve "proxy").entries, Closed entry.1 ∧ entry.2.AllClosed) ∧
    ∀ block ∈ domainBlocks nestedSample.body,
      (HostBlock.resolve nestedSample.scope block.1 block.2).bindings.get? "$roots" =
        some (.list ["/srv/live", "/tmp"]) ∧
      ∀ l ∈ locationBlocks block.2,
        ((nestedSample.locationScope block.2 l.2).location l.1).bindings.get? "$name" =
          some (.scalar "shop-live") := by
  have h : nestedSample.ReferencesBound := by
    refine ⟨⟨by decide, by decide⟩, ⟨by decide, by decide, by decide⟩, ?_, by decide, ?_,
      by decide⟩
    · intro block hb
      obtain rfl := List.mem_singleton.mp hb
      exact ⟨by decide, by decide, by decide⟩
    · intro block hb l hl
      obtain rfl := List.mem_singleton.mp hb
      obtain rfl := List.mem_singleton.mp hl
      exact ⟨by decide, by decide, by decide⟩
  obtain ⟨hclosed, hinherited⟩ := resolve_closed "proxy" nestedSample h
  refine ⟨h, hclosed, fun block hb => ?_⟩
  obtain ⟨hdomain, hlocation⟩ := hinherited block hb
  obtain rfl := List.mem_singleton.mp hb
  refine ⟨(hdomain "$roots" (by decide)).trans (by decide +kernel), fun l hl => ?_⟩
  have hname := hlocation l hl "$name"
  obtain rfl := List.mem_singleton.mp hl
  exact (hname (by decide)).trans (by decide +kernel)

end RuleFile

end HostRules
