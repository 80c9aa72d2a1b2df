/-
HostRules/Config.lean

The result of resolving a rule file: for every host, its variables, its directives and its
locations.  A host that is defined more than once keeps what came first and takes from later
definitions only the variables and directives that it lacks, and all their locations.
-/
import HostRules.Scope
import HostRules.Statement

namespace HostRules

variable [Regex.Dialect]

/-- A part of a host, with all that holds there. -/
structure Location where
  pattern : LocationPattern
  /-- Whether the location comes from a rule `source => target`. -/
  isBaseRule : Bool
  directives : List Directive
  bindings : Bindings
deriving DecidableEq

/-- A host, with all that holds there. -/
structure Domain where
  name : String
  directives : List Directive
  bindings : Bindings
  locations : List Location
deriving DecidableEq

/-- Takes over from a further definition of the same host what this one lacks. -/
def Domain.absorb (d other : Domain) : Domain :=
  { d with
    bindings := d.bindings.fillFrom other.bindings
    directives := d.directives ++ other.directives.filter (!definesDirective d.directives ·.name)
    locations := d.locations ++ other.locations }

/-- The hosts of a rule file by name. -/
abbrev Config := Table Domain

namespace Config

/-- Adds the definition of a host. -/
def add (c : Config) (d : Domain) : Config :=
  c.insert d.name (match c.get? d.name with
    | some known => known.absorb d
    | none => d)

/-- The hosts that some definitions define. -/
def ofDomains (domains : List Domain) : Config := domains.foldl add ∅

/-- The number of locations of all hosts. -/
def locationCount (c : Config) : Nat := c.entries.foldr (·.2.locations.length + ·) 0

theorem get?_add (c : Config) (d : Domain) (name : String) :
    (c.add d).get? name =
      if name = d.name then some (((c.get? d.name).map (·.absorb d)).getD d)
      else c.get? name := by
  unfold add
  rw [Table.get?_insert]
  cases c.get? d.name <;> rfl

end Config

end HostRules
