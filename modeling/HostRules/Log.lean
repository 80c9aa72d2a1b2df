/-
HostRules/Log.lean

The events of reading and of resolving a rule file, in the order in which they happen.
Reading tells of every token up to the one that ends a run, and then of the block that the
run opens; resolving tells of misplaced blocks and resolved domains on its way through the
blocks, then of rules without a host, then of hosts that come up again.
-/
import HostRules.Event
import HostRules.Resolve
import HostRules.Statement.Parse

namespace HostRules

variable [Regex.Dialect]

/-! ### Reading -/

/-- The event of a block that opens with the tokens of a run. -/
def Header.event (h : Header) (line : Nat) : Event :=
  match h with
  | .domain names => .domainBlock names line
  | .location pattern => .locationBlock pattern.text line

/-- The tokens of a run, its terminator last. -/
def Run.allTokens (r : Run) : List Token := r.tokens ++ [r.terminator]

/-- The events of the block that a run opens, given the state behind the run. -/
def ReadState.openingEvents (s : ReadState) (run : Run) : List Event :=
  match run.terminator.kind, s.blocks, withoutComments run.tokens with
  | .blockStart, b :: _, first :: _ => [b.header.event first.span.start.line]
  | _, _, _ => []

/-- The events of reading runs from a state on, up to the first fault, with the tokens behind
the last complete run. -/
def ReadState.log (last : List Token) : ReadState → List Run → List Event
  | _, [] => last.map .token
  | s, run :: more =>
    run.allTokens.map .token ++
      match s.step run with
      | .error _ => []
      | .ok s => s.openingEvents run ++ s.log last more

/-- The events of reading a stream of tokens. -/
def TokenStream.log (stream : TokenStream) : List Event :=
  let runs := Runs.ofTokens stream.tokens
  ReadState.log runs.last {} runs.complete

/-! ### Resolving -/

/-- The event of misplaced blocks, if a body has any. -/
def misplacedEvents (scope : BlockKind) (body : List Statement) : List Event :=
  let count := misplacedCount scope body
  if 0 < count then [.misplacedBlocks count scope] else []

/-- The events of a domain block, given its resolved hosts. -/
def domainEvents (hosts : List String) (body : List Statement) : List Event :=
  misplacedEvents .domain body ++
    (locationBlocks body).flatMap (fun (_, body) => misplacedEvents .location body) ++
    [.resolvedDomain hosts]

/-- The events of entering definitions of hosts that a configuration has already. -/
def repeatedEvents : Config → List Domain → List Event
  | _, [] => []
  | c, d :: more =>
    (if c.contains d.name then [.repeatedDomain d.name] else []) ++ repeatedEvents (c.add d) more

/-- The events of resolving a rule file. -/
def RuleFile.log (passthrough : String) (f : RuleFile) : List Event :=
  let resolved := f.resolution
  misplacedEvents .global f.body ++
    ((resolved.blocks.zip (domainBlocks f.body)).flatMap fun (b, _, body) =>
      domainEvents b.hosts body) ++
    ((resolved.rules.filter (·.host == "")).map fun r => .noHost r.source) ++
    repeatedEvents ∅ (resolved.domains passthrough)

end HostRules
