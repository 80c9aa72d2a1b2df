/-
HostRules/Compile.lean

Compiling a rule file: reading and resolving it under some options.  A session compiles one
text after another under the same options and collects the diagnostics of those it refuses.
-/
import HostRules.Log

namespace HostRules

variable [Regex.Dialect]

/-- What can be chosen for a compilation. -/
structure Options where
  /-- The name that diagnostics show for the text. -/
  sourceName : Option String := none
  /-- The variable that takes the targets of rules. -/
  passthrough : String := "proxy_pass"
deriving DecidableEq

namespace Options

/-- Compiles a text, or tells why it is refused. -/
def compile (o : Options) (source : String) : Except Rejection Config :=
  match RuleFile.parse source with
  | .ok f => .ok (f.resolve o.passthrough)
  | .error fault => .error ⟨fault, source, o.sourceName⟩

/-- The events of compiling a text, apart from the report of a rejection. -/
def events (o : Options) (source : String) : List Event :=
  let stream := TokenStream.ofText source
  stream.log ++
    match RuleFile.ofTokens stream with
    | .ok f => f.log o.passthrough ++ [.compiled (f.resolve o.passthrough).size]
    | .error _ => []

/-- The events of compiling a text, its rejection reported to the log. -/
def log (o : Options) (source : String) : List Event :=
  o.events source ++
    match o.compile source with
    | .ok _ => []
    | .error r => [.rejected r]

end Options

/-! ### Sessions -/

/-- Options, and the rejections reported under them so far. -/
structure Session where
  options : Options
  reported : List Rejection := []
deriving DecidableEq

namespace Session

/-- Compiles a text and reports its rejection. -/
def compile (s : Session) (source : String) : Except Rejection Config × Session :=
  match s.options.compile source with
  | .ok c => (.ok c, s)
  | .error r => (.error r, { s with reported := s.reported ++ [r] })

/-- Compiles some texts in turn: the result of each with the session behind it. -/
def compileAll (s : Session) : List String → List (Except Rejection Config × Session)
  | [] => []
  | source :: more =>
    let result := s.compile source
    result :: result.2.compileAll more

end Session

end HostRules
