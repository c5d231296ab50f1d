import SearchQuery.Text.Numeral
import SearchQuery.CommandLine.Request

/-!
The arguments of the command: words of a query and options. A word that starts with a dash is an option,
unless it is a number, has a space in it or stands after two dashes. Long options may be shortened, short ones
put together. The words of a query stand next to each other: words after an option that splits them are not
understood.
-/

namespace SearchQuery.CommandLine

/-! ### Kinds of arguments -/

/-- An argument by its kind. An option may have an argument in the same word. -/
inductive Argument where
  | word (s : Text)
  | separator
  | option (option : Switch) (name : Text) (attached : Option Text)
  | unknown (s : Text)

/-- The option of a name. -/
def named? (name : Text) : Option Switch :=
  (optionNames.find? fun (known, _) => known = name).map (·.2)

/-- The text up to the first equals sign, and what follows it. -/
def cutAtEquals (s : Text) : Text × Option Text :=
  match s.dropWhile (· ≠ '=') with
  | [] => (s, none)
  | _ :: rest => (s.takeWhile (· ≠ '='), some rest)

/-- The options that a word which is no name may mean: long ones that it shortens, or a short one with its
    argument put to it. -/
def candidates (s : Text) : List (Switch × Text × Option Text) :=
  if s.take 2 = ['-', '-'] then
    let (start, attached) := cutAtEquals s
    optionNames.filterMap fun (name, option) =>
      if start.isPrefixOf name then some (option, name, attached) else none
  else
    optionNames.filterMap fun (name, option) =>
      if name = s.take 2 then some (option, name, some (s.drop 2)) else none

/-- The word is a negative number: a dash and digits, with or without a point. -/
def isNegativeNumber (s : Text) : Bool :=
  let s := if s.getLast? = some '\n' then s.dropLast else s
  match s with
  | '-' :: s =>
    match s.dropWhile isDecimal with
    | [] => !s.isEmpty
    | '.' :: digits => !digits.isEmpty && digits.all isDecimal
    | _ => false
  | _ => false

/-- The kind of an argument that stands before any two dashes. -/
def classify (s : Text) : Except UsageError Argument :=
  if s.head? ≠ some '-' then .ok (.word s)
  else
    match named? s with
    | some option => .ok (.option option s none)
    | none =>
      if s.length = 1 then .ok (.word s)
      else
        let (start, attached) := cutAtEquals s
        match attached, named? start with
        | some argument, some option => .ok (.option option start (some argument))
        | _, _ =>
          match candidates s with
          | [(option, name, attached)] => .ok (.option option name attached)
          | [] => .ok (if isNegativeNumber s || s.contains ' ' then .word s else .unknown s)
          | several => .error (.ambiguous s (several.map (·.2.1)))

/-- The kinds of the arguments. Two dashes make words of all arguments that follow. -/
def classifyAll : List Text → Except UsageError (List Argument)
  | [] => .ok []
  | s :: later =>
    if s = ['-', '-'] then .ok (.separator :: later.map .word)
    else do
      let first ← classify s
      let rest ← classifyAll later
      return first :: rest

/-! ### From arguments to a request -/

/-- What has been understood so far: the request, whether it has its words, and what is not understood. -/
structure Progress where
  request : Request := {}
  hasWords : Bool := false
  extra : List Text := []

/-- The text of a word or two dashes. -/
def wordText? : Argument → Option Text
  | .word s => some s
  | .separator => some ['-', '-']
  | _ => none

/-- The words of a query without the first two dashes among them. -/
def dropSeparator (words : List Text) : List Text :=
  words.erase ['-', '-']

/-- The options that are put together in one word, and the argument of the last of them. -/
def cluster (option : Switch) (name : Text) :
    (argument : Text) → Except UsageError (List Switch × Option Text)
  | [] => if option = .config then .ok ([option], some []) else .error (.ignoredArgument option [])
  | c :: rest =>
    if option = .config then .ok ([option], some (c :: rest))
    else
      match if name.take 2 = ['-', '-'] then none else named? ['-', c] with
      | none => .error (.ignoredArgument option (c :: rest))
      | some next =>
        if rest.isEmpty then .ok ([option, next], none)
        else do
          let (options, last) ← cluster next ['-', c] rest
          return (option :: options, last)

/-- The request with an option. Of an argument that is two dashes alone no name is left. -/
def Request.with (request : Request) (option : Switch) (argument : Option Text) :
    Except Stop Request :=
  match option with
  | .help => .error .help
  | .json => .ok { request with json := true }
  | .verbose => .ok { request with verbose := true }
  | .config =>
    match argument with
    | some path => .ok { request with settings := if path = ['-', '-'] then .nameless else .named path }
    | none => .error (.usage (.missingArgument .config))

/-- The request with several options, the last of them with an argument. -/
def Request.withAll (request : Request) (argument : Option Text) :
    List Switch → Except Stop Request
  | [] => .ok request
  | option :: options => do
    let request ← request.with option argument
    request.withAll argument options

/-- Takes words that stand next to each other: they are the words of the query, unless it has its words. -/
def Progress.take (progress : Progress) (words : List Text) : Progress :=
  if progress.hasWords then { progress with extra := progress.extra ++ words }
  else { progress with request := { progress.request with words := dropSeparator words }, hasWords := true }

/-- The words at the front of the arguments. -/
def leadingWords (arguments : List Argument) : List Text :=
  (arguments.takeWhile fun a => (wordText? a).isSome).filterMap wordText?

/-- The arguments after the words at the front. -/
def afterWords (arguments : List Argument) : List Argument :=
  arguments.dropWhile fun a => (wordText? a).isSome

theorem length_afterWords_le (arguments : List Argument) :
    (afterWords arguments).length ≤ arguments.length :=
  (List.dropWhile_sublist _).length_le

/-- Understands the arguments from the left. -/
def understand (progress : Progress) : List Argument → Except Stop Progress
  | [] => .ok progress
  | .unknown s :: later => understand { progress with extra := progress.extra ++ [s] } later
  | .word s :: later => understand (progress.take (s :: leadingWords later)) (afterWords later)
  | .separator :: later => understand (progress.take (['-', '-'] :: leadingWords later)) (afterWords later)
  | .option option name attached :: later => do
    let (options, last) ←
      match attached with
      | some argument => (cluster option name argument).mapError .usage
      | none => pure ([option], none)
    if options.contains .config && last.isNone then
      match later with
      | .word path :: later =>
        let request ← progress.request.withAll (some path) options
        understand { progress with request } later
      | _ => .error (.usage (.missingArgument .config))
    else
      let request ← progress.request.withAll last options
      understand { progress with request } later
termination_by arguments => arguments.length
decreasing_by
  all_goals simp only [List.length_cons]
  all_goals try have := length_afterWords_le later
  all_goals omega

/-- The request that the arguments make. Words that are left over are not understood. -/
def request (arguments : List Text) : Except Stop Request := do
  let arguments ← (classifyAll arguments).mapError .usage
  let progress ← understand {} arguments
  if progress.extra.isEmpty then return progress.request
  else .error (.usage (.unrecognized progress.extra))

end SearchQuery.CommandLine
