import SearchQuery.Text.Numeral
import SearchQuery.Text.Escape

/-!
Text from bytes in UTF-8. The first byte of a character says how many follow and which values the first of
them may have. Bytes that are no text are refused with their place: a byte that starts no character, a
character cut short by a byte that cannot follow, or one cut short by the end.
-/

namespace SearchQuery.Utf8

/-- Why bytes are no text. -/
inductive Reason where
  | start
  | continuation
  | ending
deriving Repr, DecidableEq

/-- Bytes that are no text: the first of them, its place, and how many belong to it. -/
structure Fault where
  reason : Reason
  byte : UInt8
  position : Nat
  count : Nat
deriving Repr, DecidableEq

/-- What is wrong with the bytes, in words. -/
def Reason.message : Reason → Text
  | .start => "invalid start byte".toList
  | .continuation => "invalid continuation byte".toList
  | .ending => "unexpected end of data".toList

/-- The message of a fault. One byte is named, of several only the places of the first and the last. -/
def Fault.message (fault : Fault) : Text :=
  let place := Numeral.ofNat fault.position
  let bytes :=
    if fault.count ≤ 1 then
      "byte 0x".toList ++ hexDigits 2 fault.byte.toNat ++ " in position ".toList ++ place
    else "bytes in position ".toList ++ place ++ '-' :: Numeral.ofNat (fault.position + fault.count - 1)
  "'utf-8' codec can't decode ".toList ++ bytes ++ ':' :: ' ' :: fault.reason.message

/-- The ranges of the bytes that follow the first byte of a character, if the byte starts one. -/
def followers? (b : UInt8) : Option (List (UInt8 × UInt8)) :=
  let tail : UInt8 × UInt8 := (0x80, 0xBF)
  if b < 0x80 then some []
  else if b < 0xC2 then none
  else if b < 0xE0 then some [tail]
  else if b = 0xE0 then some [(0xA0, 0xBF), tail]
  else if b = 0xED then some [(0x80, 0x9F), tail]
  else if b < 0xF0 then some [tail, tail]
  else if b = 0xF0 then some [(0x90, 0xBF), tail, tail]
  else if b < 0xF4 then some [tail, tail, tail]
  else if b = 0xF4 then some [(0x80, 0x8F), tail, tail]
  else none

/-- The bytes at the front that stand in the ranges, one after another. -/
def inRanges : List (UInt8 × UInt8) → List UInt8 → List UInt8
  | (low, high) :: ranges, b :: bytes => if low ≤ b && b ≤ high then b :: inRanges ranges bytes else []
  | _, _ => []

/-- The character of a first byte and the bytes that follow it. -/
def character (first : UInt8) (tail : List UInt8) : Char :=
  let lead := if tail.isEmpty then first.toNat else first.toNat % Nat.pow 2 (6 - tail.length)
  Char.ofNat (tail.foldl (fun n b => 64 * n + b.toNat % 64) lead)

/-- The text of the bytes from a place on, as far as they are text, and what is wrong after it. -/
def decodeFrom (position : Nat) : List UInt8 → Text × Option Fault
  | [] => ([], none)
  | b :: bytes =>
    match followers? b with
    | none => ([], some ⟨.start, b, position, 1⟩)
    | some ranges =>
      let tail := inRanges ranges bytes
      if tail.length = ranges.length then
        let (later, fault) := decodeFrom (position + tail.length + 1) (bytes.drop tail.length)
        (character b tail :: later, fault)
      else
        let reason := if tail.length < bytes.length then .continuation else .ending
        ([], some ⟨reason, b, position, tail.length + 1⟩)
termination_by bytes => bytes.length
decreasing_by
  simp only [List.length_drop, List.length_cons]
  omega

/-- The text of bytes in UTF-8. -/
def decode (bytes : List UInt8) : Except Fault Text :=
  match decodeFrom 0 bytes with
  | (text, none) => .ok text
  | (_, some fault) => .error fault

end SearchQuery.Utf8
