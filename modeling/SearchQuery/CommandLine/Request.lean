import SearchQuery.Text.Quoted

/-!
What a command line can ask for, and the messages for command lines that are not understood.
-/

namespace SearchQuery.CommandLine

/-- The options of the command. -/
inductive Switch where
  | help
  | json
  | config
  | verbose
deriving DecidableEq, Repr

/-- The names of the options, in the order in which they are shown. -/
def optionNames : List (Text × Switch) :=
  [(['-', 'h'], .help), ("--help".toList, .help), ("--json".toList, .json), (['-', 'c'], .config),
   ("--config".toList, .config), (['-', 'v'], .verbose), ("--verbose".toList, .verbose)]

/-- Where the settings come from: the usual file, a named one, or an option without a name. -/
inductive SettingsSource where
  | usual
  | named (path : Text)
  | nameless

/-- What the command is asked to do: the words of a query, what it shows of its condition, and with which settings. -/
structure Request where
  words : List Text := []
  json : Bool := false
  verbose : Bool := false
  settings : SettingsSource := .usual

/-- Why arguments are not understood. -/
inductive UsageError where
  | ambiguous (word : Text) (names : List Text)
  | ignoredArgument (option : Switch) (argument : Text)
  | missingArgument (option : Switch)
  | unrecognized (words : List Text)

/-- Why nothing is read: help is asked for, or the arguments are not understood. -/
inductive Stop where
  | help
  | usage (error : UsageError)

/-- The texts with a separator between two neighbours. -/
def separated (separator : String) (texts : List Text) : Text :=
  Text.joinWith separator.toList texts

/-- The names of an option, as messages show them. -/
def Switch.names (option : Switch) : Text :=
  separated "/" ((optionNames.filter fun (_, known) => known = option).map (·.1))

/-- The message for arguments that are not understood. -/
def UsageError.message : UsageError → Text
  | .ambiguous word names =>
    "ambiguous option: ".toList ++ word ++ " could match ".toList ++ separated ", " names
  | .ignoredArgument option argument =>
    "argument ".toList ++ option.names ++ ": ignored explicit argument ".toList ++ argument.quoted
  | .missingArgument option => "argument ".toList ++ option.names ++ ": expected one argument".toList
  | .unrecognized words => "unrecognized arguments: ".toList ++ separated " " words

end SearchQuery.CommandLine
