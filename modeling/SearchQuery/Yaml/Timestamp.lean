import SearchQuery.Text.Numeral

/-!
Dates as they are written: a year, a month and a day, and after them perhaps a time with a fraction of a second
and a zone.
-/

namespace SearchQuery.Yaml

/-- The digits at the front of a text, if there are at least `low` and at most `high` of them, and what
    follows. More digits than `high` are left to what follows. -/
def digits? (low high : Nat) (s : Text) : Option (Nat × Text) :=
  let run := (s.take high).takeWhile Char.isDigit
  if run.length < low then none else some (Numeral.value run, s.drop run.length)

/-- The text without a line feed at its end. -/
def withoutLineFeed (s : Text) : Text :=
  if s.getLast? = some '\n' then s.dropLast else s

/-- What follows a character at the front of a text. -/
def after? (c : Char) : Text → Option Text
  | [] => none
  | d :: s => if d = c then some s else none

/-- The parts of a date and a time as they are written. -/
structure Timestamp where
  year : Nat
  month : Nat
  day : Nat
  time : Option (Nat × Nat × Nat)
  /-- The digits of a fraction of a second. -/
  fraction : Text
  /-- A zone: whether it is behind universal time, and its hours and minutes. -/
  zone : Option (Bool × Nat × Nat)

namespace Timestamp

/-- The zone that ends a time. -/
def zone? : Text → Option (Option (Bool × Nat × Nat))
  | [] => some none
  | s =>
    match s.dropWhile fun c => c = ' ' || c = '\t' with
    | ['Z'] => some (some (false, 0, 0))
    | sign :: s =>
      if sign = '+' || sign = '-' then do
        let (hours, s) ← digits? 1 2 s
        if s.isEmpty then some (some (sign = '-', hours, 0))
        else
          let s ← after? ':' s
          let (minutes, s) ← digits? 2 2 s
          if s.isEmpty then some (some (sign = '-', hours, minutes)) else none
      else none
    | [] => none

/-- The time that follows a date. -/
def time? (year month day : Nat) (s : Text) : Option Timestamp := do
  let s ← match s with
    | 'T' :: s => some s
    | 't' :: s => some s
    | c :: s => if c = ' ' || c = '\t' then some (s.dropWhile fun c => c = ' ' || c = '\t') else none
    | [] => none
  let (hour, s) ← digits? 1 2 s
  let s ← after? ':' s
  let (minute, s) ← digits? 2 2 s
  let s ← after? ':' s
  let (second, s) ← digits? 2 2 s
  let (fraction, s) := match s with
    | '.' :: s => (s.takeWhile Char.isDigit, s.dropWhile Char.isDigit)
    | s => ([], s)
  let zone ← zone? s
  return ⟨year, month, day, some (hour, minute, second), fraction, zone⟩

/-- Reads a date with or without a time. A month or day of one digit is read as well. -/
def read? (s : Text) : Option Timestamp := do
  let (year, s) ← digits? 4 4 s
  let s ← after? '-' s
  let (month, s) ← digits? 1 2 s
  let s ← after? '-' s
  let (day, s) ← digits? 1 2 s
  if s.isEmpty then return ⟨year, month, day, none, [], none⟩ else time? year month day s

end Timestamp

end SearchQuery.Yaml
