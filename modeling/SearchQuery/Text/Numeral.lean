import SearchQuery.Text.Basic

/-!
Numerals are read in the decimal digits of any script and written in the ASCII ones. A digit of another
kind, such as a superscript or a digit in a circle, counts as a digit where a text is asked whether it
consists of digits, but has no place value, so a numeral that holds one cannot be read. Nor can a numeral of
many more digits than there is anything to count.
-/

namespace SearchQuery

/-- The zeros of the scripts; the other nine digits of a script follow its zero. -/
def zeroDigits : List Nat :=
  [0x30, 0x660, 0x6F0, 0x7C0, 0x966, 0x9E6, 0xA66, 0xAE6, 0xB66, 0xBE6, 0xC66, 0xCE6, 0xD66, 0xDE6,
    0xE50, 0xED0, 0xF20, 0x1040, 0x1090, 0x17E0, 0x1810, 0x1946, 0x19D0, 0x1A80, 0x1A90, 0x1B50,
    0x1BB0, 0x1C40, 0x1C50, 0xA620, 0xA8D0, 0xA900, 0xA9D0, 0xA9F0, 0xAA50, 0xABF0, 0xFF10, 0x104A0,
    0x10D30, 0x11066, 0x110F0, 0x11136, 0x111D0, 0x112F0, 0x11450, 0x114D0, 0x11650, 0x116C0,
    0x11730, 0x118E0, 0x11950, 0x11C50, 0x11D50, 0x11DA0, 0x16A60, 0x16AC0, 0x16B50, 0x1D7CE,
    0x1D7D8, 0x1D7E2, 0x1D7EC, 0x1D7F6, 0x1E140, 0x1E2F0, 0x1E950, 0x1FBF0]

/-- Digits without a place value: superscripts, subscripts, and digits in circles, brackets or with a
    point. -/
def placelessDigits : Ranges :=
  [(0xB2, 0xB3), (0xB9, 0xB9), (0x1369, 0x1371), (0x19DA, 0x19DA), (0x2070, 0x2070),
    (0x2074, 0x2079), (0x2080, 0x2089), (0x2460, 0x2468), (0x2474, 0x247C), (0x2488, 0x2490),
    (0x24EA, 0x24EA), (0x24F5, 0x24FD), (0x24FF, 0x24FF), (0x2776, 0x277E), (0x2780, 0x2788),
    (0x278A, 0x2792), (0x10A40, 0x10A43), (0x10E60, 0x10E68), (0x11052, 0x1105A), (0x1F100, 0x1F10A)]

/-- The value of a decimal digit of any script. -/
def digitValue? (c : Char) : Option Nat :=
  (zeroDigits.find? fun first => first ≤ c.toNat && c.toNat ≤ first + 9).map (c.toNat - ·)

/-- The character is a decimal digit of some script. -/
def isDecimal (c : Char) : Bool :=
  (digitValue? c).isSome

/-- The character is a decimal digit, or a digit without a place value. -/
def isDigitLike (c : Char) : Bool :=
  isDecimal c || placelessDigits.has c

namespace Numeral

/-- The value of a numeral, its digits read from the left. -/
def value (digits : Text) : Nat :=
  digits.foldl (fun n c => 10 * n + (digitValue? c).getD 0) 0

/-- The value of a text that consists of decimal digits. -/
def read? (s : Text) : Option Nat :=
  if !s.isEmpty && s.all isDecimal then some (value s) else none

/-- The ASCII digit of a value below ten. -/
def digit (n : Nat) : Char :=
  Char.ofNat (0x30 + n)

/-- A number in ASCII digits, without leading zeros. -/
def ofNat (n : Nat) : Text :=
  if n < 10 then [digit n] else ofNat (n / 10) ++ [digit (n % 10)]

theorem exists_digit_of_mem {c : Char} {n : Nat} (h : c ∈ ofNat n) : ∃ d < 10, c = digit d := by
  fun_induction ofNat n with
  | case1 n hn => exact ⟨n, hn, by simpa using h⟩
  | case2 n hn ih =>
    rcases List.mem_append.mp h with h | h
    · exact ih h
    · exact ⟨n % 10, Nat.mod_lt _ (by decide), by simpa using h⟩

/-- Numerals of so many digits are read, whatever they are to stand for. -/
def commonLength : Nat := 4300

/-- The number of digits of the longest numeral that is read as an index into `size` entries. -/
def lengthLimit (size : Nat) : Nat :=
  max commonLength (ofNat size).length

/-- The message for more digits than are read or written, with what is known about them. -/
def lengthMessage (details : Text) : Text :=
  "Exceeds the limit (".toList ++ ofNat commonLength ++ " digits) for integer string conversion".toList ++
    details ++ "; use sys.set_int_max_str_digits() to increase the limit".toList

/-- The message for a numeral of too many digits. -/
def overlongMessage (length : Nat) : Text :=
  lengthMessage (": value has ".toList ++ ofNat length ++ " digits".toList)

/-- The message for a number that would be written in too many digits. -/
def unshowableMessage : Text :=
  lengthMessage []

/-- A number in ASCII digits, with a minus sign if it is negative. -/
def ofInt : Int → Text
  | .ofNat n => ofNat n
  | .negSucc n => '-' :: ofNat (n + 1)

end Numeral
end SearchQuery
