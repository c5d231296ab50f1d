/-!
Finite floating-point numbers as what they are: a whole number times a power of two. Comparing one with a
whole number of any size needs that form, and so does finding its shortest decimal.
-/

namespace SearchQuery

/-- A finite floating-point number: `m * 2 ^ q`, or its negative. -/
structure Binary where
  negative : Bool
  m : Nat
  q : Int
deriving Repr, DecidableEq

namespace Binary

/-- The form of a floating-point number that is neither infinite nor undefined. -/
def ofFloat? (x : Float) : Option Binary :=
  let bits := x.toBits.toNat
  let exponent := bits / 0x10000000000000 % 2048
  let fraction := bits % 0x10000000000000
  let negative := bits / 0x8000000000000000 = 1
  if exponent = 2047 then none
  else if exponent = 0 then some ⟨negative, fraction, -1074⟩
  else some ⟨negative, fraction + 0x10000000000000, (exponent : Int) - 1075⟩

/-- The number is the given whole number. -/
def isInt (x : Binary) (n : Int) : Bool :=
  (x.m = 0 || x.negative = decide (n < 0)) &&
    x.m * Nat.pow 2 x.q.toNat = n.natAbs * Nat.pow 2 (-x.q).toNat

/-- Steps below the number are finer than those above it. -/
def isFinerBelow (x : Binary) : Bool :=
  x.m = 0x10000000000000 && -1074 < x.q

end Binary
end SearchQuery
