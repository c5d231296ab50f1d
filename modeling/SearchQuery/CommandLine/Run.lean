import SearchQuery.CommandLine.Arguments
import SearchQuery.Condition.Canonical
import SearchQuery.Condition.Json
import SearchQuery.Condition.Outline
import SearchQuery.Settings.File
import SearchQuery.Trace

/-!
The command: it reads a query and shows its condition, as canonical query text with an outline or as one line
of JSON. Settings that cannot be used and arguments that are not understood end it with a message and an exit
code of their own.
-/

namespace SearchQuery.CommandLine

/-- What the command does: its exit code and what it writes. -/
structure Outcome where
  exit : Nat := 0
  output : Text := []
  errors : Text := []
deriving DecidableEq

variable {V F : Type}

/-- Why the command breaks off without an exit code. -/
inductive Crash (F : Type) where
  | settings (fault : Settings.LoadFault F)
  /-- The option that names a settings file has no name. -/
  | nameless
  | query (fault : Fault Empty)

/-- The message for a command that breaks off, given those for the faults of the reader of its settings. -/
def Crash.message (explain : F → Text) : Crash F → Text
  | .settings fault => fault.message explain
  | .nameless => "expected str, bytes or os.PathLike object, not list".toList
  | .query fault => fault.message

/-- What writes on the screen. It may leave out, expand or wrap what a line cannot show. -/
structure Console where
  /-- How a line of text is written, with its end. -/
  line : Text → Text
  /-- How the outline of a condition is written. -/
  outline : ClosedCondition → Text

/-- The console that writes everything as it is. -/
def Console.plain : Console where
  line s := s ++ ['\n']
  outline c := c.outlineText

/-- What the command has to do with: its home directory and the files, what reads a settings file, its input,
    in which each line ends with a line feed, and its console. -/
structure Surroundings (V F : Type) where
  home : Text
  files : Text → Settings.FileState
  reader : DocumentReader V F
  input : Text
  console : Console

/-- The settings of the file that is named, or else of the usual one. -/
def Surroundings.settings (around : Surroundings V F) (named : Option Text) :
    Except (Settings.LoadFault F) Settings :=
  Settings.load around.reader around.home around.files named

/-- The line that says how the command is called. -/
def usageText : Text :=
  "usage: querytree [-h] [--json] [-c CONFIG] [-v] [query ...]\n".toList

/-- What is written where help is asked for. -/
def helpText : Text :=
  usageText ++ '\n' :: "Parse a Google-style search query into a condition tree

positional arguments:
  query                 Query words (joined with spaces). Reads STDIN when omitted.

options:
  -h, --help            show this help message and exit
  --json                Print the condition tree as JSON
  -c CONFIG, --config CONFIG
                        Config file (default: ~/.config/querytree/querytree.yml)
  -v, --verbose         Log each parsing stage
".toList

/-- The outcome where nothing is read. -/
def Stop.outcome : Stop → Outcome
  | .help => { output := helpText }
  | .usage error => { exit := 2, errors := usageText ++ "querytree: error: ".toList ++ error.message ++ ['\n'] }

/-- What is shown of a condition: its canonical query text, or that the query is empty, and its outline. -/
def Console.shown (console : Console) (c : ClosedCondition) : Text :=
  let canonical := c.queryText
  console.line (if canonical.isEmpty then "(empty query)".toList else canonical) ++ console.outline c

/-- What is written of a condition. -/
def Request.write (request : Request) (console : Console) (c : ClosedCondition) : Text :=
  if request.json then c.jsonLine ++ ['\n'] else console.shown c

/-- The path of the settings file that a request names, if it names one. -/
def Request.settingsPath? (request : Request) : Except (Crash F) (Option Text) :=
  match request.settings with
  | .usual => .ok none
  | .named path => .ok (some path)
  | .nameless => .error .nameless

/-- The query of a request: its words, or the input if it has none. -/
def Request.query (request : Request) (input : Text) : Text :=
  if request.words.isEmpty then input else Text.joinWith [' '] request.words

/-- What the command does for a request. -/
def Request.run (request : Request) (around : Surroundings V F) : Except (Crash F) Outcome := do
  let path ← request.settingsPath?
  match around.settings path with
  | .error (.file fault) => return { exit := 1, errors := "Error: ".toList ++ fault.message ++ ['\n'] }
  | .error fault => .error (.settings fault)
  | .ok settings =>
    let query := request.query around.input
    let c ← (Query.parse settings query).mapError .query
    let notices := if request.verbose then Notice.ofQuery settings query else []
    return { output := request.write around.console c, errors := notices.flatMap (·.line ++ ['\n']) }

/-- What the command does for its arguments. -/
def run (arguments : List Text) (around : Surroundings V F) : Except (Crash F) Outcome :=
  match request arguments with
  | .error stop => .ok stop.outcome
  | .ok request => request.run around

end SearchQuery.CommandLine
