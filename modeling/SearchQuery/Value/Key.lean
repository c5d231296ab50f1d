import SearchQuery.Value.Basic

/-!
When two values are the same key of a mapping. Numbers are compared by value, whatever their kind, and moments
with a zone by the instant that they name. Collections are no keys.
-/

namespace SearchQuery

/-- The number of days from the start of the calendar to a date. -/
def Date.ordinal (d : Date) : Nat :=
  let cycle := Nat.pred d.year
  let common := [0, 31, 59, 90, 120, 151, 181, 212, 243, 273, 304, 334].getD (Nat.pred d.month) 0
  let isLeap := d.year % 4 = 0 && (d.year % 100 ≠ 0 || d.year % 400 = 0)
  365 * cycle + cycle / 4 - cycle / 100 + cycle / 400 + common + (if isLeap && 2 < d.month then 1 else 0) + d.day

/-- The microseconds from the start of the calendar to a time on a day, as clocks there show it. -/
def Time.instant (day : Date) (t : Time) : Int :=
  let minutes : Int := 1440 * day.ordinal + 60 * t.hour + t.minute - t.zone.getD 0
  1000000 * (60 * minutes + t.second) + t.microsecond

namespace Value

/-- The number that a value counts as when keys are compared. -/
def number? : Value → Option (Int ⊕ Float)
  | .bool b => some (.inl (if b then 1 else 0))
  | .int n => some (.inl n)
  | .float x => some (.inr x)
  | _ => none

/-- A whole number and a floating-point number are the same number. -/
def sameNumber (n : Int) (x : Float) : Bool :=
  (Binary.ofFloat? x).any (·.isInt n)

/-- Two values are the same key. -/
def sameKey (a b : Value) : Bool :=
  match a, b with
  | .null, .null => true
  | .string s, .string t => s == t
  | .bytes s, .bytes t => s == t
  | .date s, .date t => s == t
  | .moment s u, .moment t v => u.zone.isSome == v.zone.isSome && u.instant s == v.instant t
  | _, _ =>
    match a.number?, b.number? with
    | some (.inl m), some (.inl n) => m == n
    | some (.inr x), some (.inr y) => x == y
    | some (.inl n), some (.inr x) | some (.inr x), some (.inl n) => sameNumber n x
    | _, _ => false

end Value
end SearchQuery
