/-
HostRules/CommandLine/Arguments.lean

A reader of arguments: what the program is asked for, or what it answers in place of a
command.  The commands do not depend on it.
-/
import HostRules.CommandLine

namespace HostRules.CommandLine

/-- What is answered in place of a command. -/
inductive Answer where
  | help
  | version
  /-- The arguments are wrong. -/
  | misuse
deriving DecidableEq

/-- The exit code of an answer. -/
def Answer.code : Answer → Nat
  | help | version => 0
  | misuse => 2

/-- The options and the plain words among some arguments. -/
structure Given where
  verbose : Bool := false
  passthrough : Option String := none
  pretty : Bool := false
  words : List String := []
deriving DecidableEq

namespace Given

/-- Notes an option without a value; none may be given twice. -/
def flag (g : Given) : String → Except Answer Given
  | "-v" | "--verbose" => if g.verbose then .error .misuse else .ok { g with verbose := true }
  | "--pretty" => if g.pretty then .error .misuse else .ok { g with pretty := true }
  | "-h" | "--help" => .error .help
  | _ => .error .misuse

/-- Notes the value of `--passthrough`, which may not be given twice. -/
def setPassthrough (g : Given) (value : String) : Except Answer Given :=
  if g.passthrough.isSome then .error .misuse else .ok { g with passthrough := some value }

/-- Adds a plain word. -/
def addWord (g : Given) (word : String) : Given := { g with words := g.words ++ [word] }

end Given

/-- Whether an argument is written as an option. -/
def isOption (argument : String) : Bool :=
  match argument.toList with
  | '-' :: _ :: _ => true
  | _ => false

/-- The text behind `--passthrough=`. -/
def attachedValue? (argument : String) : Option String :=
  let name := "--passthrough=".toList
  if name.isPrefixOf argument.toList then
    some (String.ofList (argument.toList.drop name.length))
  else none

/-- Divides the arguments of a command into options and words.  Behind `--` all are words. -/
def readGiven (g : Given) : List String → Except Answer Given
  | [] => .ok g
  | "--" :: words => .ok { g with words := g.words ++ words }
  | ["--passthrough"] => .error .misuse
  | "--passthrough" :: value :: more =>
    if isOption value then .error .misuse
    else
      match g.setPassthrough value with
      | .ok g => readGiven g more
      | .error a => .error a
  | argument :: more =>
    if isOption argument then
      match attachedValue? argument with
      | some value =>
        match g.setPassthrough value with
        | .ok g => readGiven g more
        | .error a => .error a
      | none =>
        match g.flag argument with
        | .ok g => readGiven g more
        | .error a => .error a
    else readGiven (g.addWord argument) more

/-- Divides the arguments at the first one that is neither an option nor the value of one.
Behind `--` no command can be named. -/
def splitAtCommand : List String → List String × List String
  | [] => ([], [])
  | "--" :: words => ("--" :: words, [])
  | "--passthrough" :: value :: more =>
    let (options, rest) := splitAtCommand more
    ("--passthrough" :: value :: options, rest)
  | argument :: more =>
    if isOption argument then
      let (options, rest) := splitAtCommand more
      (argument :: options, rest)
    else ([], argument :: more)

/-- The command that a name and what was given behind it ask for. -/
def readCommand (name : String) (g : Given) : Except Answer Command :=
  if g.words.contains "" then .error .misuse
  else
    match name, g.pretty, g.words with
    | "check", false, file :: more => .ok (.check (file :: more))
    | "resolve", pretty, [file] => .ok (.resolve file pretty)
    | "tokens", false, [file] => .ok (.tokens file)
    | "help", _, _ => .error .help
    | _, _, _ => .error .misuse

/-- What the arguments ask for.  Options may stand before and behind the name of the command;
the later value counts. -/
def readArguments (arguments : List String) : Except Answer Invocation := do
  let (options, rest) := splitAtCommand arguments
  if options.contains "-V" || options.contains "--version" then throw .version
  let before ← readGiven {} options
  let name :: behind := rest | throw .misuse
  let after ← readGiven {} behind
  if before.pretty || !before.words.isEmpty then throw .misuse
  let command ← readCommand name after
  return {
    passthrough := (after.passthrough.or before.passthrough).getD ({} : Options).passthrough
    verbose := before.verbose || after.verbose
    command }

/-- How the program is used. -/
def usage : String :=
  "Usage: rewrite-conf [OPTIONS] <COMMAND>\n\n" ++
  "Commands:\n" ++
  "  check    Check that rule files compile\n" ++
  "  resolve  Print the resolved configuration as JSON\n" ++
  "  tokens   Dump the token stream of a rule file\n\n" ++
  "Options:\n" ++
  "  -v, --verbose                    Enable debug logging\n" ++
  "      --passthrough <PASSTHROUGH>  Directive that `source => target` rules expand into\n" ++
  "  -h, --help                       Print help\n" ++
  "  -V, --version                    Print version\n"

/-- The text of an answer. -/
def Answer.text : Answer → String
  | help | misuse => usage
  | version => "rewrite-conf 0.1.0\n"

end HostRules.CommandLine
