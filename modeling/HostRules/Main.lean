/-
HostRules/Main.lean

The program: reads its arguments and the files that they name, and prints the outcome.
-/
import HostRules.CommandLine.Arguments
import HostRules.Regex.Standard

namespace HostRules.CommandLine

/-- Reads a file as text. -/
def readText (file : String) : IO Contents := do
  try
    let bytes ← IO.FS.readBinFile file
    match String.fromUTF8? bytes with
    | some text => return .ok text
    | none => return .error .notText
  catch
    | .noFileOrDirectory _ _ _ => return .error .notFound
    | .inappropriateType _ 20 _ => return .error .notDirectory
    | .inappropriateType _ 21 _ => return .error .isDirectory
    | .invalidArgument _ 36 _ => return .error .nameTooLong
    | e => return .error (.other (toString e))

/-- The line of an event in the log. -/
def logLine (e : Event) : String :=
  let shown : Field → String
    | .number n => toString n
    | .text s => s
  e.level.name ++ " " ++ e.message ++
    String.join (e.fields.map fun (name, value) => " " ++ name ++ "=" ++ shown value) ++ "\n"

/-- Prints an answer, the help and the version as what was asked for. -/
def answer (a : Answer) : IO UInt32 := do
  match a with
  | .help | .version => IO.print a.text
  | .misuse => IO.eprint a.text
  return a.code.toUInt32

/-- Runs a command on the files that it names. -/
def perform (i : Invocation) : IO UInt32 := do
  let contents ← i.command.files.mapM fun file => return (file, ← readText file)
  let outcome := run { read := fun file => (contents.lookup file).getD (.error .notFound) } i
  IO.print outcome.output
  IO.eprint (outcome.errorOutput fun _ => logLine)
  return outcome.code.toUInt32

end HostRules.CommandLine

/-- Runs the program. -/
def main (arguments : List String) : IO UInt32 :=
  match HostRules.CommandLine.readArguments arguments with
  | .ok i => HostRules.CommandLine.perform i
  | .error a => HostRules.CommandLine.answer a
