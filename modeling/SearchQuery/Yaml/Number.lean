import SearchQuery.Text.Blank
import SearchQuery.Text.LetterCase
import SearchQuery.Yaml.Error
import SearchQuery.Yaml.Tag

/-!
Numbers in the notations of YAML: whole numbers in base two, eight, ten, sixteen or sixty, and decimals, with
underscores between the digits. The digits may be of any script, and blanks may stand around them; a sign or
the mark of a base may come twice.
-/

namespace SearchQuery.Yaml

/-- The number without its underscores. -/
def withoutScores (s : CodePoints) : CodePoints :=
  s.filter (· ≠ .char '_')

/-- A blank around a number: none of the separators of files, groups, records and units. -/
def isNumberBlank (c : Char) : Bool :=
  isBlank c && !(0x1C ≤ c.toNat && c.toNat ≤ 0x1F)

/-- A code point of a number, digits of all scripts in ASCII. No number has a question mark in it. -/
def plainDigit : CodePoint → Char
  | .char c =>
    match digitValue? c with
    | some n => Numeral.digit n
    | none => if c.toNat < 0x7F || isNumberBlank c then c else '?'
  | .surrogate _ => '?'

/-- A number as it is read: in ASCII digits, without the blanks around it. -/
def plainNumber (s : CodePoints) : Text :=
  let s := (s.map plainDigit).dropWhile isNumberBlank
  (s.reverse.dropWhile isNumberBlank).reverse

/-- Whether a minus sign stands before a text, and what follows its sign. -/
def splitSign : Text → Bool × Text
  | '-' :: s => (true, s)
  | '+' :: s => (false, s)
  | s => (false, s)

/-- The digits after the mark of their base, if it is there. -/
def withoutBaseMark (base : Nat) : Text → Text
  | '0' :: c :: s =>
    let isMark := (base = 16 && (c = 'x' || c = 'X')) || (base = 8 && (c = 'o' || c = 'O')) ||
      (base = 2 && (c = 'b' || c = 'B'))
    if isMark then s else '0' :: c :: s
  | s => s

/-- The value of digits in a base, with a sign and the mark of the base or without them. -/
def readBase (base : Nat) (s : CodePoints) : Except Error Int :=
  let (negative, digits) := splitSign (plainNumber s)
  let digits := withoutBaseMark base digits
  let run := digits.takeWhile fun c => (hexValue? c).any (· < base)
  if base = 10 && Numeral.commonLength < run.length then .error (.fault (.overlong run.length))
  else if run.isEmpty || run.length < digits.length then .error (.fault (.numeral base s))
  else
    let n : Int := run.foldl (fun n c => base * n + (hexValue? c).getD 0) 0
    .ok (if negative then -n else n)

/-- The value of parts in base sixty, the largest first. -/
def sixtieths (parts : List Int) : Int :=
  parts.foldl (fun n part => 60 * n + part) 0

/-- A whole number without its first sign. -/
def readUnsigned : CodePoints → Except Error Int
  | [] => .error (.fault .empty)
  | .char '0' :: .char 'b' :: digits => readBase 2 digits
  | .char '0' :: .char 'x' :: digits => readBase 16 digits
  | .char '0' :: digits => if digits.isEmpty then .ok 0 else readBase 8 (.char '0' :: digits)
  | s =>
    match s.splitOn (.char ':') with
    | [] | [_] => readBase 10 s
    | parts => (parts.mapM (readBase 10)).map sixtieths

/-- A whole number in one of the notations of the language. -/
def readInt (s : CodePoints) : Except Error Int :=
  match withoutScores s with
  | [] => .error (.fault .empty)
  | .char '-' :: s => (readUnsigned s).map (- ·)
  | .char '+' :: s => readUnsigned s
  | s => readUnsigned s

/-- The floating-point number nearest to `m * 10 ^ e`. Beyond four hundred digits before or after the point
    there is only infinity, or nothing. -/
def scientific (m : Nat) (e : Int) : Float :=
  let length : Int := (Numeral.ofNat m).length
  if m = 0 || length + e < -400 then 0.0
  else if 400 < length + e then 1.0 / 0.0
  else Float.ofScientific m (decide (e < 0)) e.natAbs

/-- An exponent: the letter and a whole number, or nothing. -/
def exponent? : Text → Option Int
  | [] => some 0
  | e :: s =>
    let (negative, digits) := splitSign s
    let n : Int := Numeral.value digits
    if (e = 'e' || e = 'E') && !digits.isEmpty && digits.all Char.isDigit then
      some (if negative then -n else n)
    else none

/-- A decimal without a sign: digits with or without a point and an exponent, infinity, or no number. -/
def unsignedDecimal? (s : Text) : Option Float :=
  let word := String.ofList (s.map Char.toLower)
  if word = "inf" || word = "infinity" then some (1.0 / 0.0)
  else if word = "nan" then some (0.0 / 0.0)
  else
    let whole := s.takeWhile Char.isDigit
    let (fraction, rest) := match s.dropWhile Char.isDigit with
      | '.' :: rest => (rest.takeWhile Char.isDigit, rest.dropWhile Char.isDigit)
      | rest => ([], rest)
    if whole.isEmpty && fraction.isEmpty then none
    else (exponent? rest).map fun e => scientific (Numeral.value (whole ++ fraction)) (e - fraction.length)

/-- A decimal with or without a sign. -/
def readDecimal (s : CodePoints) : Except Error Float :=
  let (negative, unsigned) := splitSign (plainNumber s)
  match unsignedDecimal? unsigned with
  | some x => .ok (if negative then -x else x)
  | none => .error (.fault (.decimal s))

/-- The sum of parts in base sixty, the smallest first, added to a sum; `weight` is that of the next part. -/
def sixtiethsFrom (sum : Float) (weight : Nat) : List Float → Except Error Float
  | [] => .ok sum
  | x :: xs =>
    let w := scientific weight 0
    if w.isInf then .error (.fault .weight) else sixtiethsFrom (sum + x * w) (60 * weight) xs

/-- A decimal in one of the notations of the language without its first sign. The undefined number that is
    written with a point is always the same one, and given as none. -/
def readUnsignedFloat (s : CodePoints) : Except Error (Option Float) :=
  if s = Text.codePoints ['.', 'i', 'n', 'f'] then .ok (some (1.0 / 0.0))
  else if s = Text.codePoints ['.', 'n', 'a', 'n'] then .ok none
  else
    match s.splitOn (.char ':') with
    | [] | [_] => (readDecimal s).map some
    | parts => do
      let parts ← parts.mapM readDecimal
      let sum ← sixtiethsFrom 0.0 1 parts.reverse
      return some sum

/-- A decimal in one of the notations of the language. -/
def readFloat (s : CodePoints) : Except Error (Option Float) :=
  match (withoutScores s).lower with
  | [] => .error (.fault .empty)
  | .char '-' :: s => (readUnsignedFloat s).map (Option.map (- ·))
  | .char '+' :: s => readUnsignedFloat s
  | s => readUnsignedFloat s

end SearchQuery.Yaml
