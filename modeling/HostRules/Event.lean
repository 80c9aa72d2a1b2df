/-
HostRules/Event.lean

What the compiler tells about its work.  An event has a level, a message and named fields;
the log of a run is the list of its events, and whoever reads it keeps those that are severe
enough.
-/
import HostRules.Fault
import HostRules.Text.Quoted
import HostRules.Token

namespace HostRules

/-- How severe an event is. -/
inductive Level where
  | error
  | warn
  | debug
  | trace
deriving DecidableEq

namespace Level

/-- The name of a level. -/
def name : Level → String
  | error => "ERROR"
  | warn => "WARN"
  | debug => "DEBUG"
  | trace => "TRACE"

/-- The rank of a level, the most severe one first. -/
def rank : Level → Nat
  | error => 0
  | warn => 1
  | debug => 2
  | trace => 3

/-- Whether a log that goes down to `lowest` keeps events of this level. -/
def keeps (lowest level : Level) : Bool := level.rank ≤ lowest.rank

end Level

/-- A text that was refused: its fault, the text, and its name if it has one. -/
structure Rejection where
  fault : Fault
  source : String
  sourceName : Option String
deriving DecidableEq

/-- The diagnostic of a rejection. -/
def Rejection.diagnostic (r : Rejection) : Diagnostic := r.fault.diagnostic r.source r.sourceName

/-- The events of a compilation. -/
inductive Event where
  /-- A token was read. -/
  | token (t : Token)
  /-- A domain block opened, with a header that begins at `line`. -/
  | domainBlock (names : List String) (line : Nat)
  /-- A location block opened. -/
  | locationBlock (pattern : String) (line : Nat)
  /-- Blocks were passed over because they stand in the wrong place. -/
  | misplacedBlocks (count : Nat) (scope : BlockKind)
  /-- A domain block was resolved for its hosts. -/
  | resolvedDomain (hosts : List String)
  /-- A rule has no host. -/
  | noHost (source : String)
  /-- A host was defined once more. -/
  | repeatedDomain (host : String)
  /-- A file was compiled. -/
  | compiled (domains : Nat)
  /-- A file was refused. -/
  | rejected (r : Rejection)
deriving DecidableEq

/-- The value of a field: a number or a text. -/
inductive Field where
  | number (n : Nat)
  | text (s : String)
deriving DecidableEq

namespace Event

/-- The level of an event. -/
def level : Event → Level
  | token _ => .trace
  | domainBlock _ _ | locationBlock _ _ | resolvedDomain _ | repeatedDomain _ | compiled _ =>
    .debug
  | misplacedBlocks _ _ | noHost _ => .warn
  | rejected _ => .error

/-- The message of an event. -/
def message : Event → String
  | token _ => "token"
  | domainBlock _ _ => "domain block"
  | locationBlock _ _ => "location block"
  | misplacedBlocks _ _ => "ignoring blocks nested at the wrong depth"
  | resolvedDomain _ => "resolved domain"
  | noHost _ => "base rule has no host"
  | repeatedDomain _ => "merging repeated domain"
  | compiled _ => "compiled unit"
  | rejected r => r.diagnostic.render

/-- The fields of an event. -/
def fields : Event → List (String × Field)
  | token t =>
    [("kind", .text t.kind.name), ("value", .text t.value), ("line", .number t.span.start.line)]
  | domainBlock names line =>
    [("domains", .text (String.ofList (quotedList names))), ("line", .number line)]
  | locationBlock pattern line => [("location", .text pattern), ("line", .number line)]
  | misplacedBlocks count scope => [("count", .number count), ("scope", .text scope.name)]
  | resolvedDomain hosts => [("names", .text (String.ofList (quotedList hosts)))]
  | noHost source => [("source", .text source)]
  | repeatedDomain host => [("domain", .text host)]
  | compiled domains => [("domains", .number domains)]
  | rejected r =>
    [("line", .number r.fault.place.line), ("column", .number r.fault.place.column),
      ("source", .text (shownName r.sourceName))]

end Event

/-- The events of a log that are at least as severe as `lowest`. -/
def keepEvents (lowest : Level) (log : List Event) : List Event :=
  log.filter (lowest.keeps ·.level)

end HostRules
