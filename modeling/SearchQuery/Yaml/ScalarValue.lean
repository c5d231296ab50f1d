import SearchQuery.Value.Basic
import SearchQuery.Yaml.Number

/-!
What scalars stand for, besides numbers: truth values, bytes in base64, and dates.
-/

namespace SearchQuery.Yaml

/-- A truth value in one of its words. -/
def readBool (s : CodePoints) : Except Error Bool :=
  let lowered := s.lower
  let isWord (word : String) : Bool := lowered == word.toList.map .char
  if ["yes", "true", "on"].any isWord then .ok true
  else if ["no", "false", "off"].any isWord then .ok false
  else .error (.fault (.flag lowered))

/-- The value of a digit of base64. -/
def sextet? (c : Char) : Option Nat :=
  if 'A' ≤ c && c ≤ 'Z' then some (c.toNat - 0x41)
  else if 'a' ≤ c && c ≤ 'z' then some (c.toNat - 0x61 + 26)
  else if '0' ≤ c && c ≤ '9' then some (c.toNat - 0x30 + 52)
  else if c = '+' then some 62
  else if c = '/' then some 63
  else none

/-- The bytes of base64 digits, of which `held` bits of value `left` are waiting. Padding that fills a group
    ends the data, other characters are passed over. -/
def readBase64 (place pads left : Nat) : Text → Option (List UInt8)
  | [] => if place = 0 then some [] else none
  | c :: s =>
    if c = '=' then
      if 2 ≤ place && 4 ≤ place + pads + 1 then some []
      else readBase64 place (if 2 ≤ place then pads + 1 else pads) left s
    else
      match sextet? c with
      | none => readBase64 place pads left s
      | some n =>
        match place with
        | 0 => readBase64 1 0 n s
        | 1 => (readBase64 2 0 (n % 16) s).map ((4 * left + n / 16).toUInt8 :: ·)
        | 2 => (readBase64 3 0 (n % 4) s).map ((16 * left + n / 4).toUInt8 :: ·)
        | _ => (readBase64 0 0 0 s).map ((64 * left + n).toUInt8 :: ·)

/-- The number of days of a month. -/
def daysIn (year month : Nat) : Nat :=
  if month = 2 then
    if year % 4 = 0 && (year % 100 ≠ 0 || year % 400 = 0) then 29 else 28
  else if [4, 6, 9, 11].contains month then 30 else 31

/-- A part of a date out of its range. -/
def outOfRange {β : Type} (what : String) : Except Error β :=
  .error (.fault (.range what.toList))

/-- The day of a year, a month and a day of it. -/
def readDay (year month day : Nat) : Except Error Date :=
  if year < 1 then outOfRange "year 0 is out of range"
  else if month < 1 || 12 < month then outOfRange "month must be in 1..12"
  else if day < 1 || daysIn year month < day then outOfRange "day is out of range for month"
  else .ok ⟨year, month, day⟩

/-- The bytes that base64 stands for. -/
def readBinary (s : CodePoints) : Except Error (List UInt8) :=
  match s.text? with
  | none => .error (.problem .base64)
  | some s =>
    match readBase64 0 0 0 s with
    | some content => if s.all (·.toNat < 0x80) then .ok content else .error (.problem .base64)
    | none => .error (.problem .base64)

/-- The minutes that a zone is ahead of universal time: less than a day. -/
def readZone : Option (Bool × Nat × Nat) → Except Error (Option Int)
  | none => .ok none
  | some (behind, hours, minutes) =>
    let ahead : Int := 60 * hours + minutes
    if ahead < 1440 then .ok (some (if behind then -ahead else ahead))
    else .error (.fault (.zone (if behind then -ahead else ahead)))

/-- A date, or a date and a time. -/
def readTimestamp (s : CodePoints) : Except Error Value :=
  match s.text?.bind fun s => Timestamp.read? (withoutLineFeed s) with
  | none => .error (.fault .date)
  | some t =>
    match t.time with
    | none => (readDay t.year t.month t.day).map .date
    | some (hour, minute, second) => do
      let sixDigits := (t.fraction ++ List.replicate 6 '0').take 6
      let zone ← readZone t.zone
      let day ← readDay t.year t.month t.day
      if 23 < hour then outOfRange "hour must be in 0..23"
      if 59 < minute then outOfRange "minute must be in 0..59"
      if 59 < second then outOfRange "second must be in 0..59"
      return .moment day ⟨hour, minute, second, Numeral.value sixDigits, zone⟩

end SearchQuery.Yaml
