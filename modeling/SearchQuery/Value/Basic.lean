import SearchQuery.Fault
import SearchQuery.Text.CodePoint
import SearchQuery.Value.Binary
import SearchQuery.Value.Decimal

/-!
Values of any kind, as a document read from outside may hold them: what a settings file has under a key, or
what stands in a tree where a condition or a node is expected. Mappings keep the order in which their keys
came.
-/

namespace SearchQuery

/-- A day of the calendar. -/
structure Date where
  year : Nat
  month : Nat
  day : Nat
deriving Repr, DecidableEq

/-- A time of day to the microsecond, and the minutes that its zone is ahead of universal time. -/
structure Time where
  hour : Nat
  minute : Nat
  second : Nat
  microsecond : Nat
  zone : Option Int
deriving Repr, DecidableEq

/-- A value of any kind. -/
inductive Value where
  | null
  | bool (b : Bool)
  | int (n : Int)
  | float (x : Float)
  | string (s : CodePoints)
  | bytes (content : List UInt8)
  | date (day : Date)
  | moment (day : Date) (time : Time)
  | list (items : List Value)
  | pair (first second : Value)
  | set (members : List Value)
  | mapping (entries : List (Value × Value))
  /-- A collection inside itself: whether it is a mapping. -/
  | itself (isMapping : Bool)
deriving Inhabited

namespace Value

/-- The name of the kind of a value. -/
def kind : Value → Text
  | .null => "NoneType".toList
  | .bool _ => "bool".toList
  | .int _ => "int".toList
  | .float _ => "float".toList
  | .string _ => "str".toList
  | .bytes _ => "bytes".toList
  | .date _ => "datetime.date".toList
  | .moment .. => "datetime.datetime".toList
  | .list _ => "list".toList
  | .pair .. => "tuple".toList
  | .set _ => "set".toList
  | .mapping _ => "dict".toList
  | .itself isMapping => (if isMapping then "dict" else "list").toList

/-- Numbers are written positionally from a ten-thousandth up to but not including ten to the sixteenth. -/
def decimalStyle : Decimal.Style := ⟨-4, 16⟩

/-- How a floating-point number is shown: in the fewest digits that read back to it. -/
def displayFloat (x : Float) : Text :=
  match Binary.ofFloat? x with
  | none => if x.isNaN then "nan".toList else if x < 0 then "-inf".toList else "inf".toList
  | some b =>
    let sign := if b.negative then ['-'] else []
    if b.m = 0 then sign ++ "0.0".toList
    else
      let (digits, e) := Decimal.shortest b.m b.q b.isFinerBelow
      sign ++ decimalStyle.write digits e

/-- How a byte is shown between quotes of the given kind. -/
def displayByte (quote : Char) (b : UInt8) : Text :=
  let c := Char.ofNat b.toNat
  if c = quote || c = '\\' then ['\\', c]
  else if c = '\n' then ['\\', 'n']
  else if c = '\r' then ['\\', 'r']
  else if c = '\t' then ['\\', 't']
  else if 0x20 ≤ b && b < 0x7F then [c]
  else '\\' :: 'x' :: hexDigits 2 b.toNat

/-- How bytes are shown. -/
def displayBytes (content : List UInt8) : Text :=
  let quote := Text.quoteFor (content.map fun b => Char.ofNat b.toNat)
  'b' :: quote :: content.flatMap (displayByte quote) ++ [quote]

/-- Texts with a comma between two neighbours. -/
def commaSeparated (texts : List Text) : Text :=
  Text.joinWith [',', ' '] texts

/-- A span of time in days and seconds, only the days being negative. -/
def displaySpan (minutes : Int) : Text :=
  let part (name : String) (n : Int) : List Text := if n = 0 then [] else [name.toList ++ Numeral.ofInt n]
  let parts := part "days=" (minutes.fdiv 1440) ++ part "seconds=" (60 * minutes.fmod 1440)
  "datetime.timedelta(".toList ++ (if parts.isEmpty then ['0'] else commaSeparated parts) ++ [')']

/-- How a zone is shown, given the minutes that it is ahead of universal time. -/
def displayZone (minutes : Int) : Text :=
  if minutes = 0 then "datetime.timezone.utc".toList
  else "datetime.timezone(".toList ++ displaySpan minutes ++ [')']

/-- The parts of a date, in order. -/
def dateParts (day : Date) : List Text :=
  [day.year, day.month, day.day].map Numeral.ofNat

/-- The parts of a time, in order; seconds and microseconds only if something but zeros is left. -/
def timeParts (time : Time) : List Text :=
  let fine :=
    if time.microsecond ≠ 0 then [time.second, time.microsecond]
    else if time.second ≠ 0 then [time.second] else []
  ([time.hour, time.minute] ++ fine).map Numeral.ofNat ++
    (time.zone.map fun minutes => "tzinfo=".toList ++ displayZone minutes).toList

mutual

/-- How a value is shown. -/
def display : Value → Text
  | .null => "None".toList
  | .bool b => if b then "True".toList else "False".toList
  | .int n => Numeral.ofInt n
  | .float x => displayFloat x
  | .string s => s.quoted
  | .bytes content => displayBytes content
  | .date day => "datetime.date(".toList ++ commaSeparated (dateParts day) ++ [')']
  | .moment day time =>
    "datetime.datetime(".toList ++ commaSeparated (dateParts day ++ timeParts time) ++ [')']
  | .list items => '[' :: commaSeparated (displayAll items) ++ [']']
  | .pair first second => '(' :: display first ++ ',' :: ' ' :: display second ++ [')']
  | .set members =>
    if members.isEmpty then "set()".toList else '\x7b' :: commaSeparated (displayAll members) ++ ['\x7d']
  | .mapping entries => '\x7b' :: commaSeparated (displayEntries entries) ++ ['\x7d']
  | .itself isMapping => (if isMapping then "\x7b...\x7d" else "[...]").toList

/-- How each of several values is shown. -/
def displayAll : List Value → List Text
  | [] => []
  | value :: values => display value :: displayAll values

/-- How each entry of a mapping is shown. -/
def displayEntries : List (Value × Value) → List Text
  | [] => []
  | (key, value) :: entries => (display key ++ ':' :: ' ' :: display value) :: displayEntries entries

end

mutual

/-- How deep collections nest in the value. -/
def depth : Value → Nat
  | .list items | .set items => depthAll items + 1
  | .pair first second => max (depth first) (depth second) + 1
  | .mapping entries => depthEntries entries + 1
  | _ => 0

/-- How deep collections nest in several values. -/
def depthAll : List Value → Nat
  | [] => 0
  | value :: values => max (depth value) (depthAll values)

/-- How deep collections nest in the entries of a mapping. -/
def depthEntries : List (Value × Value) → Nat
  | [] => 0
  | (key, value) :: entries => max (max (depth key) (depth value)) (depthEntries entries)

end

mutual

/-- A whole number in the value is too long to be shown. -/
def isOverlong : Value → Bool
  | .int n => Nat.pow 10 Numeral.commonLength ≤ n.natAbs
  | .list items | .set items => anyOverlong items
  | .pair first second => isOverlong first || isOverlong second
  | .mapping entries => anyEntryOverlong entries
  | _ => false

/-- A whole number in one of several values is too long to be shown. -/
def anyOverlong : List Value → Bool
  | [] => false
  | value :: values => isOverlong value || anyOverlong values

/-- A whole number in an entry of a mapping is too long to be shown. -/
def anyEntryOverlong : List (Value × Value) → Bool
  | [] => false
  | (key, value) :: entries => isOverlong key || isOverlong value || anyEntryOverlong entries

end

end Value

/-- Values of any kind may stand where a condition or a node is expected. -/
instance : Foreign Value where
  kind := Value.kind
  display := Value.display

end SearchQuery
