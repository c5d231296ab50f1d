import SearchQuery.CommandLine.Run
import SearchQuery.Yaml.Document

/-!
The program: it looks up the settings file on disk, reads its input if no query words are given, and does what
the command says.
-/

namespace SearchQuery.CommandLine

/-- What is found at a path on disk. What is there but cannot be read as a file counts as a directory. -/
def findFile (path : Text) : IO Settings.FileState := do
  try
    let bytes ← IO.FS.readBinFile (String.ofList path)
    return .content bytes.toList
  catch
    | .noFileOrDirectory .. => return .missing
    | _ => return .directory

/-- The files and the input that a request needs. A carriage return in the input ends a line, as in a file. -/
def Request.surroundings (request : Request) : IO (Surroundings Yaml.ReadValue Yaml.Fault) := do
  let home := ((← IO.getEnv "HOME").getD "").toList
  let named :=
    match request.settings with
    | .named path => some path
    | _ => none
  let state ← findFile (Settings.pathOf home named)
  let input ← if request.words.isEmpty then (← IO.getStdin).readToEnd else pure ""
  let lines := File.normalizeLineEnds input.toList
  return { home, files := fun _ => state, reader := Yaml.reader, input := lines, console := .plain }

/-- Writes an outcome, and gives its exit code. -/
def Outcome.write (outcome : Outcome) : IO UInt32 := do
  IO.eprint (String.ofList outcome.errors)
  IO.print (String.ofList outcome.output)
  return outcome.exit.toUInt32

/-- Does what the arguments say, and gives the exit code. -/
def start (arguments : List String) : IO UInt32 := do
  match request (arguments.map String.toList) with
  | .error stop => stop.outcome.write
  | .ok request =>
    match request.run (← request.surroundings) with
    | .ok outcome => outcome.write
    | .error crash =>
      IO.eprintln (String.ofList (crash.message Yaml.Fault.message))
      return 1

end SearchQuery.CommandLine

/-- The program gives the exit code of the command. -/
def main (arguments : List String) : IO UInt32 :=
  SearchQuery.CommandLine.start arguments
