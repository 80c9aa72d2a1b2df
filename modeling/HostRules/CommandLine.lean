/-
HostRules/CommandLine.lean

The commands: what they print and how they end.  A command gets the contents of files from
outside and returns an exit code with the text for its output and what stands on its error
output.  The code is 2 when a file cannot be read, otherwise 1 when some file is refused,
otherwise 0.

The log goes to the error output as well.  Which events are logged is a matter of the
environment, or else of how much the program was asked to tell; how a logger writes an event,
with the time and its own layout, is not said here.
-/
import HostRules.Compile
import HostRules.Config.Json

namespace HostRules.CommandLine

variable [Regex.Dialect]

/-! ### Files -/

/-- Why a file could not be read. -/
inductive ReadProblem where
  | notFound
  | notDirectory
  | isDirectory
  | nameTooLong
  | notText
  | other (reason : String)
deriving DecidableEq

/-- The words for a problem with reading. -/
def ReadProblem.message : ReadProblem → String
  | notFound => "No such file or directory (os error 2)"
  | notDirectory => "Not a directory (os error 20)"
  | isDirectory => "Is a directory (os error 21)"
  | nameTooLong => "File name too long (os error 36)"
  | notText => "stream did not contain valid UTF-8"
  | other reason => reason

/-- The contents of a file, as far as they can be read. -/
abbrev Contents := Except ReadProblem String

/-- The contents of files by their paths. -/
abbrev Files := String → Contents

/-! ### What is asked for -/

/-- The commands. -/
inductive Command where
  /-- Tells for each file whether it compiles. -/
  | check (files : List String)
  /-- Prints the configuration of a file. -/
  | resolve (file : String) (pretty : Bool)
  /-- Lists the tokens of a file. -/
  | tokens (file : String)
deriving DecidableEq

/-- The files that a command reads. -/
def Command.files : Command → List String
  | check files => files
  | resolve file _ | tokens file => [file]

/-- What the program is asked for. -/
structure Invocation where
  passthrough : String
  verbose : Bool
  command : Command
deriving DecidableEq

/-- What the program finds around it: the files, and a filter for the log if one is set. -/
structure Environment where
  read : Files
  filter : Option (Event → Bool) := none

/-- Whether an event is logged.  Without a filter, warnings are, and on request what helps with
debugging. -/
def Environment.keeps (env : Environment) (verbose : Bool) (e : Event) : Bool :=
  match env.filter with
  | some keep => keep e
  | none => (if verbose then Level.debug else .warn).keeps e.level

/-! ### Outcomes -/

/-- What stands on the error output. -/
inductive Notice where
  /-- The log tells of an event. -/
  | logged (e : Event)
  | valid (file : String) (domains locations : Nat)
  | rejected (r : Rejection)
  | unreadable (file : String) (problem : ReadProblem)
deriving DecidableEq

/-- The text of a notice, with `line` for the events of the log. -/
def Notice.text (line : Event → String) : Notice → String
  | logged e => line e
  | valid file domains locations =>
    file ++ ": valid (" ++ String.ofList (decimal domains) ++ " domain(s), " ++
      String.ofList (decimal locations) ++ " location(s))\n"
  | rejected r => r.diagnostic.render
  | unreadable file problem => "Error: reading " ++ file ++ ": " ++ problem.message ++ "\n"

/-- An exit code, the text for the output, and the notices for the error output. -/
structure Outcome where
  code : Nat
  output : String
  notices : List Notice
deriving DecidableEq

namespace Outcome

/-- Puts notices before those of an outcome. -/
def notify (ns : List Notice) (o : Outcome) : Outcome := { o with notices := ns ++ o.notices }

/-- The text for the error output.  The line of an event can depend on when it is written. -/
def errorOutput (line : Nat → Event → String) (o : Outcome) : String :=
  String.join (o.notices.mapIdx fun i n => n.text (line i))

end Outcome

/-! ### Commands -/

/-- The options for compiling a file. -/
def optionsFor (passthrough file : String) : Options := { sourceName := some file, passthrough }

/-- What the log tells of some events. -/
def logged (keep : Event → Bool) (events : List Event) : List Notice :=
  (events.filter keep).map .logged

/-- Ends a command because a file cannot be read. -/
def unreadable (file : String) (problem : ReadProblem) : Outcome :=
  ⟨2, "", [.unreadable file problem]⟩

/-- Checks files in turn, up to the first that cannot be read; `refused` tells whether one
before them has been refused. -/
def check (read : Files) (keep : Event → Bool) (passthrough : String) :
    (refused : Bool) → List String → Outcome
  | refused, [] => ⟨if refused then 1 else 0, "", []⟩
  | refused, file :: more =>
    match read file with
    | .error problem => unreadable file problem
    | .ok source =>
      let o := optionsFor passthrough file
      let log := logged keep (o.events source)
      match o.compile source with
      | .ok c =>
        (check read keep passthrough refused more).notify
          (log ++ [.valid file c.size c.locationCount])
      | .error r => (check read keep passthrough true more).notify (log ++ [.rejected r])

/-- Prints the configuration of a file. -/
def resolve (read : Files) (keep : Event → Bool) (passthrough file : String) (pretty : Bool) :
    Outcome :=
  match read file with
  | .error problem => unreadable file problem
  | .ok source =>
    let o := optionsFor passthrough file
    let log := logged keep (o.events source)
    match o.compile source with
    | .ok c => ⟨0, c.print pretty, log⟩
    | .error r => ⟨1, "", log ++ [.rejected r]⟩

/-- The row of a token: its place, its kind and its value. -/
def tokenRow (t : Token) : String :=
  String.ofList (decimal t.span.start.line ++ ':' :: decimal t.span.start.column ++
    '\t' :: t.kind.name.toList ++ '\t' :: quoted t.value ++ ['\n'])

/-- Lists the tokens of a file up to the first fault. -/
def listTokens (read : Files) (keep : Event → Bool) (file : String) : Outcome :=
  match read file with
  | .error problem => unreadable file problem
  | .ok source =>
    let stream := TokenStream.ofText source
    let log := logged keep (stream.tokens.map .token)
    let rows := String.join (stream.tokens.map tokenRow)
    match stream.fault with
    | none => ⟨0, rows, log⟩
    | some fault => ⟨1, rows, log ++ [.rejected ⟨fault, source, some file⟩]⟩

/-- The outcome of what the program is asked for. -/
def run (env : Environment) (i : Invocation) : Outcome :=
  let keep := env.keeps i.verbose
  match i.command with
  | .check files => check env.read keep i.passthrough false files
  | .resolve file pretty => resolve env.read keep i.passthrough file pretty
  | .tokens file => listTokens env.read keep file

end HostRules.CommandLine
