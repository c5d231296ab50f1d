import SearchQuery.Text.Numeral

/-!
The shortest decimal of a binary floating-point number: of the decimals that round to the number, one with
the fewest digits, and of those the nearest. A positive number is `m * 2 ^ q`; the reals that round to it
reach half a step up, and half a step down or a quarter where the steps below are finer. The ends belong to
them if `m` is even.
-/

namespace SearchQuery.Decimal

/-- The reals that round to a number, and the number itself, as fractions with one denominator. -/
structure Interval where
  low : Nat
  middle : Nat
  high : Nat
  den : Nat
  closed : Bool

/-- The interval of `m * 2 ^ q`. -/
def interval (m : Nat) (q : Int) (finerBelow : Bool) : Interval :=
  let up := Nat.pow 2 q.toNat
  { low := (4 * m - if finerBelow then 1 else 2) * up
    middle := 4 * m * up
    high := (4 * m + 2) * up
    den := 4 * Nat.pow 2 (-q).toNat
    closed := m % 2 == 0 }

namespace Interval

/-- Compares `d * 10 ^ k` with `x / den`. -/
def compareGrid (i : Interval) (d : Nat) (k : Int) (x : Nat) : Ordering :=
  compare (d * Nat.pow 10 k.toNat * i.den) (x * Nat.pow 10 (-k).toNat)

/-- The decimal `d * 10 ^ k` rounds to the number. -/
def admits (i : Interval) (k : Int) (d : Nat) : Bool :=
  let below := i.compareGrid d k i.low
  let above := i.compareGrid d k i.high
  (below == .gt || i.closed && below == .eq) && (above == .lt || i.closed && above == .eq)

/-- The number in units of `10 ^ k`, rounded down. -/
def floorAt (i : Interval) (k : Int) : Nat :=
  i.middle * Nat.pow 10 (-k).toNat / (i.den * Nat.pow 10 k.toNat)

/-- The multiple of `10 ^ k` that rounds to the number, the nearer of the two around it if both do, and the
    even one if both are as near. -/
def onGrid? (i : Interval) (k : Int) : Option Nat :=
  let d := i.floorAt k
  match i.admits k d, i.admits k (d + 1) with
  | false, false => none
  | true, false => some d
  | false, true => some (d + 1)
  | true, true =>
    match i.compareGrid (2 * d + 1) k (2 * i.middle) with
    | .gt => some d
    | .lt => some (d + 1)
    | .eq => some (if d % 2 == 0 then d else d + 1)

/-- The exponent of the first digit of the number, tried from `e` downwards. -/
def magnitude (i : Interval) : (tries : Nat) → (e : Int) → Int
  | 0, e => e
  | tries + 1, e => if i.floorAt e = 0 then magnitude i tries (e - 1) else e

/-- The first grid with a hit, from the coarsest one on: its multiple and its exponent. -/
def firstGrid (i : Interval) : (tries : Nat) → (k : Int) → Nat × Int
  | 0, k => (i.floorAt k, k)
  | tries + 1, k =>
    match i.onGrid? k with
    | some d => (d, k)
    | none => firstGrid i tries (k - 1)

end Interval

/-- The digits of the shortest decimal of `m * 2 ^ q` and the exponent of the first of them. -/
def shortest (m : Nat) (q : Int) (finerBelow : Bool) : Text × Int :=
  let i := interval m q finerBelow
  let (d, k) := i.firstGrid 17 (i.magnitude 640 309)
  let digits := Numeral.ofNat d
  let e := k + digits.length - 1
  let kept := (digits.reverse.dropWhile (· = '0')).reverse
  (kept, e)

/-- How decimals are written: positionally from `10 ^ low` up to but not including `10 ^ high`, with at
    least one digit after the point; else with a signed exponent of at least two digits. -/
structure Style where
  low : Int
  high : Int

/-- Digits with a point after the first `count` of them, zeros filled in. -/
def positional (digits : Text) (count : Int) : Text :=
  if count ≤ 0 then '0' :: '.' :: List.replicate (-count).toNat '0' ++ digits
  else if digits.length ≤ count.toNat then
    digits ++ List.replicate (count.toNat - digits.length) '0' ++ ['.', '0']
  else digits.take count.toNat ++ '.' :: digits.drop count.toNat

/-- Digits with a point after the first one, if others follow, and an exponent. -/
def scientific (digits : Text) (e : Int) : Text :=
  let fraction := if digits.length ≤ 1 then digits else digits.take 1 ++ '.' :: digits.drop 1
  let exponent := Numeral.ofNat e.natAbs
  fraction ++ 'e' :: (if e < 0 then '-' else '+') :: List.replicate (2 - exponent.length) '0' ++ exponent

/-- The text of digits whose first one has the exponent `e`. -/
def Style.write (style : Style) (digits : Text) (e : Int) : Text :=
  if style.low ≤ e && e < style.high then positional digits (e + 1) else scientific digits e

end SearchQuery.Decimal
