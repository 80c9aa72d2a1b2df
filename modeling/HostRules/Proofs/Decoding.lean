/-
HostRules/Proofs/Decoding.lean

Configurations read back from JSON.  Every part of a configuration has a decoder, which looks up
fields by their names and takes a table, a value or a pattern by the kind of JSON that it finds.

Main result: a configuration is what its JSON decodes to, and its text, in either layout, is read
as that JSON; so two configurations are printed alike only if they are the same
(`Config.print_determines`).
-/
import HostRules.CommandLine
import HostRules.Proofs.JsonText

namespace HostRules

variable {α β : Type}

/-! ### Parts of JSON values -/

namespace Json

/-- A text. -/
def text? : Json → Option String
  | .text s => some s
  | _ => none

/-- A flag. -/
def flag? : Json → Option Bool
  | .flag b => some b
  | _ => none

/-- A list whose items are read with `f`. -/
def list? (f : Json → Option α) : Json → Option (List α)
  | .list items => items.mapM f
  | _ => none

/-- The value of a field of an object. -/
def field? (name : String) : Json → Option Json
  | .object fields => lookupEntry name fields
  | _ => none

/-- If every item is read back, the list is. -/
theorem mapM_map_of_inverse {f : β → Option α} {g : α → β} (h : ∀ a, f (g a) = some a)
    (as : List α) : (as.map g).mapM f = some as := by
  induction as with
  | nil => rfl
  | cons a as ih =>
    rw [List.map_cons, List.mapM_cons, h a, ih]
    rfl

theorem list?_list {f : Json → Option α} {g : α → Json} (h : ∀ a, f (g a) = some a)
    (as : List α) : list? f (.list (as.map g)) = some as :=
  mapM_map_of_inverse h as

theorem list?_texts (items : List String) : list? text? (texts items) = some items := by
  have htext : ∀ s, text? (.text s) = some s := fun _ => rfl
  exact list?_list htext items

end Json

/-! ### Parts of configurations -/

/-- A table whose entries are read with `f`. -/
def Table.ofJson? (f : Json → Option α) : Json → Option (Table α)
  | .object fields => (fields.mapM fun e => (f e.2).map (e.1, ·)).map ofList
  | _ => none

/-- A text is one item, a list of texts a list. -/
def Value.ofJson? : Json → Option (Value String)
  | .text s => some (.scalar s)
  | v => (v.list? Json.text?).map .list

/-- The variables of a host or a location. -/
def Bindings.ofJson? (v : Json) : Option Bindings := Table.ofJson? Value.ofJson? v

/-- A directive by its name and its arguments. -/
def Directive.ofJson? (v : Json) : Option Directive := do
  let name ← (← v.field? "directive").text?
  let arguments ← (← v.field? "arguments").list? Json.text?
  return ⟨name, arguments⟩

/-- A table is made of its entries. -/
theorem Table.ofList_entries (t : Table α) : ofList t.entries = t := by
  apply Table.ext_get?
  intro name
  unfold ofList
  rw [Table.get?_foldl_insert t.entries t.ascending, Table.get?_empty, Option.or_none]
  rfl

theorem Table.ofJson?_toJson {f : Json → Option α} {g : α → Json} (h : ∀ a, f (g a) = some a)
    (t : Table α) : Table.ofJson? f (t.toJson g) = some t := by
  have hentry : ∀ e : String × α, (f (g e.2)).map (e.1, ·) = some e := by
    intro e
    rw [h e.2]
    rfl
  have hentries : (t.entries.map fun e => (e.1, g e.2)).mapM
      (fun e => (f e.2).map (e.1, ·)) = some t.entries :=
    Json.mapM_map_of_inverse hentry t.entries
  -- the entries are read back in order, and they ascend, so putting them in again is no change
  show Option.map ofList _ = some t
  rw [hentries, Option.map_some, Table.ofList_entries]

theorem Value.ofJson?_toJson (v : Value String) : Value.ofJson? v.toJson = some v := by
  cases v with
  | scalar item => rfl
  | list items =>
    show Option.map _ (Json.list? Json.text? (Json.texts items)) = _
    rw [Json.list?_texts]
    rfl

theorem Bindings.ofJson?_toJson (b : Bindings) : Bindings.ofJson? b.toJson = some b :=
  Table.ofJson?_toJson Value.ofJson?_toJson b

theorem Directive.ofJson?_toJson (d : Directive) : Directive.ofJson? d.toJson = some d := by
  have hname : d.toJson.field? "directive" = some (.text d.name) := rfl
  have harguments : d.toJson.field? "arguments" = some (Json.texts d.arguments) := rfl
  unfold Directive.ofJson?
  simp only [hname, harguments, Json.text?, Json.list?_texts, Option.bind_eq_bind,
    Option.bind_some, Option.pure_def]

variable [Regex.Dialect]

/-- A regular expression by its source. -/
def Regex.ofJson? (v : Json) : Option Regex := do
  let source ← (← v.field? "pattern").text?
  (ofSource source).toOption

/-- A text is a path, an object a regular expression. -/
def LocationPattern.ofJson? : Json → Option LocationPattern
  | .text s => some (.path s)
  | v => (Regex.ofJson? v).map .regex

/-- A location with all that holds there. -/
def Location.ofJson? (v : Json) : Option Location := do
  let pattern ← LocationPattern.ofJson? (← v.field? "location")
  let isBaseRule ← (← v.field? "isBaseRule").flag?
  let directives ← (← v.field? "directives").list? Directive.ofJson?
  let bindings ← Bindings.ofJson? (← v.field? "variables")
  return ⟨pattern, isBaseRule, directives, bindings⟩

/-- A host with all that holds there. -/
def Domain.ofJson? (v : Json) : Option Domain := do
  let name ← (← v.field? "domain").text?
  let directives ← (← v.field? "directives").list? Directive.ofJson?
  let bindings ← Bindings.ofJson? (← v.field? "variables")
  let locations ← (← v.field? "locations").list? Location.ofJson?
  return ⟨name, directives, bindings, locations⟩

/-- A whole configuration. -/
def Config.ofJson? (v : Json) : Option Config := Table.ofJson? Domain.ofJson? v

theorem LocationPattern.ofJson?_toJson (p : LocationPattern) :
    LocationPattern.ofJson? p.toJson = some p := by
  cases p with
  | path text => rfl
  | regex r =>
    show (Regex.ofJson? (regex r).toJson).map LocationPattern.regex = some (regex r)
    have hsource : (regex r).toJson.field? "pattern" = some (.text r.source) := rfl
    -- the source that is kept compiles, and to what it was compiled to before
    have hregex : Regex.ofJson? (regex r).toJson = some r := by
      unfold Regex.ofJson?
      simp only [hsource, Json.text?, Regex.ofSource_source, Option.bind_eq_bind,
        Option.bind_some, Except.toOption]
    rw [hregex, Option.map_some]

theorem Location.ofJson?_toJson (l : Location) : Location.ofJson? l.toJson = some l := by
  have hpattern : l.toJson.field? "location" = some l.pattern.toJson := rfl
  have hbase : l.toJson.field? "isBaseRule" = some (.flag l.isBaseRule) := rfl
  have hdirectives : l.toJson.field? "directives" =
    some (.list (l.directives.map (·.toJson))) := rfl
  have hbindings : l.toJson.field? "variables" = some l.bindings.toJson := rfl
  unfold Location.ofJson?
  simp only [hpattern, hbase, hdirectives, hbindings, LocationPattern.ofJson?_toJson, Json.flag?,
    Json.list?_list Directive.ofJson?_toJson, Bindings.ofJson?_toJson, Option.bind_eq_bind,
    Option.bind_some, Option.pure_def]

theorem Domain.ofJson?_toJson (d : Domain) : Domain.ofJson? d.toJson = some d := by
  have hname : d.toJson.field? "domain" = some (.text d.name) := rfl
  have hdirectives : d.toJson.field? "directives" =
    some (.list (d.directives.map (·.toJson))) := rfl
  have hbindings : d.toJson.field? "variables" = some d.bindings.toJson := rfl
  have hlocations : d.toJson.field? "locations" =
    some (.list (d.locations.map (·.toJson))) := rfl
  unfold Domain.ofJson?
  simp only [hname, hdirectives, hbindings, hlocations, Json.text?,
    Json.list?_list Directive.ofJson?_toJson, Json.list?_list Location.ofJson?_toJson,
    Bindings.ofJson?_toJson, Option.bind_eq_bind, Option.bind_some, Option.pure_def]

/-! ### Whole configurations -/

namespace Config

theorem ofJson?_toJson (c : Config) : ofJson? c.toJson = some c :=
  Table.ofJson?_toJson Domain.ofJson?_toJson c

theorem read?_print (pretty : Bool) (c : Config) : Json.read? (c.print pretty) = some c.toJson := by
  have hl : (if pretty then Json.indented else Json.compact).Blank := by
    cases pretty with
    | true => exact Json.blank_indented
    | false => exact Json.blank_compact
  have hend : ['\n'].all Json.isBlank = true := rfl
  have hread := Json.read?_render hl c.toJson hend
  exact hread

end Config

/-- A file that compiles is resolved to the text of its configuration. -/
theorem CommandLine.resolve_eq_print {read : Files} {passthrough file source : String} {c : Config}
    (hread : read file = .ok source)
    (hcompile : (optionsFor passthrough file).compile source = .ok c) (keep : Event → Bool)
    (pretty : Bool) :
    resolve read keep passthrough file pretty =
      ⟨0, c.print pretty, logged keep ((optionsFor passthrough file).events source)⟩ := by
  simp only [resolve, hread, hcompile]

/-- **The text of a configuration determines it.**  In both layouts it is read as one and the same
JSON value, from which the whole configuration is decoded: its hosts in order, their variables and
directives, their locations with their patterns.  So two configurations are printed alike exactly
when they are equal; a regular expression counts by its source. -/
theorem Config.print_determines (c : Config) :
    (∀ pretty, Json.read? (c.print pretty) = some c.toJson) ∧ ofJson? c.toJson = some c ∧
      ∀ (c' : Config) (pretty : Bool), c.print pretty = c'.print pretty ↔ c = c' := by
  refine ⟨fun pretty => read?_print pretty c, ofJson?_toJson c, fun c' pretty => ?_⟩
  constructor
  · intro h
    -- equal texts are read as equal values, and these are decoded as equal configurations
    have hjson : some c.toJson = some c'.toJson := by
      rw [← read?_print pretty c, ← read?_print pretty c', h]
    have hconfig : some c = some c' := by
      rw [← ofJson?_toJson c, ← ofJson?_toJson c', Option.some.inj hjson]
    exact Option.some.inj hconfig
  · intro h
    rw [h]

end HostRules
