import SearchQuery.Value.Basic

/-!
The order in which the members of a set are listed. Each has a slot in a table that is more than twice as long
as the set: the slot that its hash names, or if that is taken one close behind it, or else one further off
that the rest of the hash leads to. Only numbers have a hash here; equal numbers of different kinds have the
same one, since it is their value modulo a prime.
-/

namespace SearchQuery.Members

/-- The modulus of hashes, a prime for which powers of two repeat after 61 steps. -/
def modulus : Nat := Nat.pow 2 61 - 1

/-- A hash with the sign of its number, minus two standing for minus one. -/
def signed (negative : Bool) (n : Nat) : Int :=
  if !negative then n else if n = 1 then -2 else -n

/-- The hash of a number. -/
def hash? : Value → Option Int
  | .bool b => some (if b then 1 else 0)
  | .int n => some (signed (n < 0) (n.natAbs % modulus))
  | .float x =>
    match Binary.ofFloat? x with
    | some b => some (signed b.negative (b.m * Nat.pow 2 (b.q.emod 61).toNat % modulus))
    | none => if x.isNaN then none else some (signed (x < 0) 314159)
  | _ => none

/-- The number of slots for so many members. -/
def tableSize (count : Nat) : (tries : Nat) → (size : Nat) → Nat
  | 0, size => size
  | tries + 1, size => if size ≤ count then tableSize count tries (2 * size) else size

/-- The slot of a member: the first free one of a run, or else of the next run. -/
def slot? (isFree : Nat → Bool) (size : Nat) : (tries : Nat) → (start rest : Nat) → Option Nat
  | 0, _, _ => none
  | tries + 1, start, rest =>
    let width := if start + 9 < size then 10 else 1
    match (List.range width).find? fun k => isFree (start + k) with
    | some k => some (start + k)
    | none => slot? isFree size tries ((5 * start + 1 + rest / 32) % size) (rest / 32)

/-- Enters members of the given hashes into a table. -/
def fill : (table : Array (Option Value)) → List (Value × Int) → Array (Option Value)
  | table, [] => table
  | table, (member, hash) :: later =>
    let size := table.size
    let unsigned := (hash.emod 0x10000000000000000).toNat
    let isFree (i : Nat) : Bool := (table.getD i none).isNone
    match slot? isFree size (size + 16) (unsigned % size) unsigned with
    | some i => fill (table.setIfInBounds i (some member)) later
    | none => fill table later

/-- The members of a set as they are listed, given in the order in which they came. Members without a hash
    are listed in that order. -/
def arrange (members : List Value) : List Value :=
  match members.mapM fun member => (hash? member).map fun hash => (member, hash) with
  | none => members
  | some hashed =>
    let count := members.length
    let size := if count < 5 then 8 else tableSize (2 * count) count 8
    (fill (Array.replicate size none) hashed).toList.filterMap id

end SearchQuery.Members
