/-
HostRules/Config/Json.lean

The JSON form of a configuration: an object with a field for every host, in the order of
the names.
-/
import HostRules.Config
import HostRules.Json

namespace HostRules

variable [Regex.Dialect]

/-- A list of texts. -/
def Json.texts (items : List String) : Json := .list (items.map .text)

/-- An object with a field for every entry of a table. -/
def Table.toJson {α : Type} (f : α → Json) (t : Table α) : Json :=
  .object (t.entries.map fun e => (e.1, f e.2))

/-- A value is a text, or a list of texts. -/
def Value.toJson : Value String → Json
  | scalar item => .text item
  | list items => Json.texts items

/-- A table of variables. -/
def Bindings.toJson (bindings : Bindings) : Json := Table.toJson Value.toJson bindings

/-- A path is a text, a regular expression an object with its source. -/
def LocationPattern.toJson : LocationPattern → Json
  | path text => .text text
  | regex r => .object [("pattern", .text r.source)]

/-- A directive with its arguments. -/
def Directive.toJson (d : Directive) : Json :=
  .object [("directive", .text d.name), ("arguments", Json.texts d.arguments)]

/-- A location with all that holds there. -/
def Location.toJson (l : Location) : Json :=
  .object [("location", l.pattern.toJson), ("isBaseRule", .flag l.isBaseRule),
    ("directives", .list (l.directives.map (·.toJson))),
    ("variables", Bindings.toJson l.bindings)]

/-- A host with all that holds there. -/
def Domain.toJson (d : Domain) : Json :=
  .object [("domain", .text d.name), ("directives", .list (d.directives.map (·.toJson))),
    ("variables", Bindings.toJson d.bindings), ("locations", .list (d.locations.map (·.toJson)))]

/-- A whole configuration. -/
def Config.toJson (c : Config) : Json := Table.toJson Domain.toJson c

/-- The text that is printed for a configuration, indented if it is to be pretty. -/
def Config.print (pretty : Bool) (c : Config) : String :=
  c.toJson.render (if pretty then Json.indented else Json.compact) ++ "\n"

end HostRules
