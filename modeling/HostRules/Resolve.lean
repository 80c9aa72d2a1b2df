/-
HostRules/Resolve.lean

Resolving a rule file.  The global block, every domain block in it and every location block
in those get a settled scope; blocks in other places are passed over.  A domain block
defines each of its hosts with the locations in it.  A rule defines one host with one
location, wherever the rule stands; the hosts of rules come after those of blocks.
-/
import HostRules.Config

namespace HostRules

variable [Regex.Dialect]

/-! ### Bodies -/

/-- The directive that a statement writes. -/
def Statement.directive? : Statement → Option Directive
  | .call directive arguments => some ⟨directive, arguments.map (·.value)⟩
  | _ => none

/-- The variable that a statement gives a value. -/
def Statement.declaration? : Statement → Option (String × Value String)
  | .declare name v => some (name, v.map (·.value))
  | _ => none

/-- The layer of a body, before it is settled: its directives, and its variables in turn. -/
def Layer.ofBody (body : List Statement) : Layer :=
  (body.filterMap Statement.declaration?).foldl (fun l d => l.declare d.1 d.2)
    { directives := body.filterMap Statement.directive? }

/-- The settled scope of a body inside some layers. -/
def Scope.ofBody (enclosing : List Layer) (body : List Statement) : Scope :=
  ({ own := Layer.ofBody body, enclosing } : Scope).settle

/-- The domain blocks directly in a body. -/
def domainBlocks (body : List Statement) : List (List String × List Statement) :=
  body.filterMap Statement.domain?

/-- The location blocks directly in a body. -/
def locationBlocks (body : List Statement) : List (LocationPattern × List Statement) :=
  body.filterMap Statement.location?

/-- How many blocks of a body may not stand directly in a block of kind `scope`. -/
def misplacedCount (scope : BlockKind) (body : List Statement) : Nat :=
  (body.filterMap Statement.blockKind?).countP (·.parent? != some scope)

/-! ### Rules -/

/-- The short form `source => target`, with the values of variables put in. -/
structure Rule where
  source : String
  target : String
deriving DecidableEq

namespace Rule

/-- What follows the first two slashes in a row. -/
def behindSlashes? : List Char → Option (List Char)
  | [] => none
  | [_] => none
  | c :: d :: cs => if c = '/' ∧ d = '/' then some cs else behindSlashes? (d :: cs)

/-- The source of a rule without its scheme. -/
def address (r : Rule) : List Char := (behindSlashes? r.source.toList).getD r.source.toList

/-- The host of a rule: its address up to the first slash. -/
def host (r : Rule) : String := String.ofList (r.address.takeWhile (· != '/'))

/-- The path of a rule: its address behind the first slash. -/
def path (r : Rule) : List Char := (r.address.dropWhile (· != '/')).drop 1

/-- The host that a rule defines; the variable `passthrough` of its one location holds the
target. -/
def expand (passthrough : String) (r : Rule) : Domain :=
  { name := r.host
    directives := []
    bindings := ∅
    locations :=
      [{ pattern := .path (String.ofList ('/' :: r.path))
         isBaseRule := true
         directives := []
         bindings := (∅ : Bindings).insert passthrough (.scalar r.target) }] }

end Rule

/-- The rules directly in a body, in its settled scope. -/
def Scope.rules (s : Scope) (body : List Statement) : List Rule :=
  let σ := s.own.bindings.substitution
  (body.filterMap Statement.rule?).map fun (source, target) =>
    ⟨σ.apply source.value, σ.apply target.value⟩

/-! ### Blocks -/

/-- A location block that has the scope `s`. -/
def Scope.location (s : Scope) (pattern : LocationPattern) : Location :=
  { pattern := match pattern with
      | .path text => .path (s.own.bindings.substitution.apply text)
      | .regex r => .regex r
    isBaseRule := false
    directives := s.own.settled
    bindings := s.own.bindings }

/-- A domain block after resolution: the hosts it names, what it defines for each of them,
and the rules in it. -/
structure HostBlock where
  hosts : List String
  directives : List Directive
  bindings : Bindings
  locations : List Location
  rules : List Rule
deriving DecidableEq

namespace HostBlock

/-- Resolves a domain block inside a global block with the scope `s`. -/
def resolve (s : Scope) (names : List String) (body : List Statement) : HostBlock :=
  let inner := Scope.ofBody s.layers body
  let inside := (locationBlocks body).map fun (pattern, body) =>
    (pattern, body, Scope.ofBody inner.layers body)
  let σ := inner.own.bindings.substitution
  { hosts := names.map σ.apply
    directives := inner.own.settled
    bindings := inner.own.bindings
    locations := inside.map fun (pattern, _, s) => s.location pattern
    rules := inner.rules body ++ inside.flatMap fun (_, body, s) => s.rules body }

/-- The definitions of a domain block, one for each host it names. -/
def domains (b : HostBlock) : List Domain :=
  b.hosts.map fun name =>
    { name, directives := b.directives, bindings := b.bindings, locations := b.locations }

end HostBlock

/-! ### Rule files -/

/-- What a rule file comes to: its domain blocks and its rules. -/
structure Resolution where
  blocks : List HostBlock
  rules : List Rule
deriving DecidableEq

/-- All definitions of hosts, those of blocks before those of rules. -/
def Resolution.domains (passthrough : String) (r : Resolution) : List Domain :=
  r.blocks.flatMap (·.domains) ++ r.rules.map (·.expand passthrough)

namespace RuleFile

/-- The settled scope of the global block. -/
def scope (f : RuleFile) : Scope := Scope.ofBody [] f.body

/-- The domain blocks and the rules of a file, resolved; the rules of the global block stand
before those of the domain blocks. -/
def resolution (f : RuleFile) : Resolution :=
  let s := f.scope
  let blocks := (domainBlocks f.body).map fun (names, body) => HostBlock.resolve s names body
  ⟨blocks, s.rules f.body ++ blocks.flatMap (·.rules)⟩

/-- All definitions of hosts, in the order in which they count. -/
def domains (passthrough : String) (f : RuleFile) : List Domain :=
  f.resolution.domains passthrough

/-- Resolves a rule file; the targets of rules go to the variable `passthrough`. -/
def resolve (passthrough : String) (f : RuleFile) : Config :=
  Config.ofDomains (f.domains passthrough)

end RuleFile

end HostRules
