import SearchQuery.Text.CodePoint
import SearchQuery.Yaml.Timestamp

/-!
Tags name the kind of a node. A plain scalar without one gets it from its form, as does any scalar whose tag is
only the mark of one: the forms are tried in a fixed order, truth values first, and a scalar of no other form
is a string.
-/

namespace SearchQuery.Yaml

/-- The kind of a node. -/
inductive Tag where
  | null
  | bool
  | int
  | float
  | binary
  | timestamp
  | pairs
  | set
  | str
  | seq
  | map
  | merge
  | value
  | other (name : Text)
deriving Repr, DecidableEq

namespace Tag

/-- What the names of the language's own tags start with. -/
def own : Text := "tag:yaml.org,2002:".toList

/-- The tag of a name. -/
def ofName (name : Text) : Tag :=
  let known : List (String × Tag) :=
    [("null", .null), ("bool", .bool), ("int", .int), ("float", .float), ("binary", .binary),
     ("timestamp", .timestamp), ("omap", .pairs), ("pairs", .pairs), ("set", .set), ("str", .str),
     ("seq", .seq), ("map", .map), ("merge", .merge), ("value", .value)]
  match known.find? fun (short, _) => own ++ short.toList = name with
  | some (_, tag) => tag
  | none => .other name

/-! ### Forms of plain scalars -/

/-- The text is one of the words in small letters, with a capital, or in capitals. -/
def isAnyCase (words : List String) (s : Text) : Bool :=
  words.any fun word =>
    let lower := word.toList
    let upper := lower.map Char.toUpper
    s = lower || s = upper.take 1 ++ lower.drop 1 || s = upper

/-- The text is a truth value. -/
def isBool (s : Text) : Bool :=
  isAnyCase ["yes", "no", "true", "false", "on", "off"] s

/-- The text is nothing, in one of its spellings. -/
def isNull (s : Text) : Bool :=
  s = [] || s = ['~'] || isAnyCase ["null"] s

/-- The character is an ASCII digit or an underscore. -/
def isDigitOrScore (c : Char) : Bool :=
  c.isDigit || c = '_'

/-- The text without a sign before it. -/
def unsigned : Text → Text
  | '+' :: s => s
  | '-' :: s => s
  | s => s

/-- The text is empty or an exponent: the letter, a sign and digits. -/
def isExponent : Text → Bool
  | [] => true
  | e :: sign :: digits =>
    (e = 'e' || e = 'E') && (sign = '+' || sign = '-') && !digits.isEmpty && digits.all Char.isDigit
  | _ => false

/-- The text is a number of minutes or seconds: one or two digits, below sixty. -/
def isSixtieth : Text → Bool
  | [c] => c.isDigit
  | [c, d] => '0' ≤ c && c ≤ '5' && d.isDigit
  | _ => false

/-- The text starts with a digit and goes on in digits and underscores. -/
def isDigits : Text → Bool
  | [] => false
  | c :: s => c.isDigit && s.all isDigitOrScore

/-- The text is a decimal with digits before its point. -/
def isDecimalNumber (s : Text) : Bool :=
  let whole := s.takeWhile isDigitOrScore
  match s.dropWhile isDigitOrScore with
  | '.' :: rest => isDigits whole && isExponent (rest.dropWhile isDigitOrScore)
  | _ => false

/-- The text is a decimal without digits before its point. -/
def isFraction : Text → Bool
  | '.' :: s => isDigits (s.takeWhile isDigitOrScore) && isExponent (s.dropWhile isDigitOrScore)
  | _ => false

/-- The text is a decimal in base sixty: parts between colons, the last with a point. -/
def isSexagesimalDecimal (s : Text) : Bool :=
  let parts := s.splitOn ':'
  match (parts.drop 1).reverse with
  | [] => false
  | last :: before =>
    isDigits (parts.headD []) && before.all isSixtieth && isSixtieth (last.takeWhile Char.isDigit) &&
      match last.dropWhile Char.isDigit with
      | '.' :: rest => rest.all isDigitOrScore
      | _ => false

/-- The text is a decimal, an infinity or no number. -/
def isFloat (s : Text) : Bool :=
  isDecimalNumber (unsigned s) || isFraction s || isSexagesimalDecimal (unsigned s) ||
    ([".inf", ".Inf", ".INF"].map String.toList).contains (unsigned s) ||
    ([".nan", ".NaN", ".NAN"].map String.toList).contains s

/-- The text is a whole number without its sign, in base two, eight, ten, sixteen or sixty. -/
def isUnsignedInt : Text → Bool
  | '0' :: 'b' :: s => !s.isEmpty && s.all fun c => c = '0' || c = '1' || c = '_'
  | '0' :: 'x' :: s =>
    !s.isEmpty && s.all fun c => c.isDigit || c = '_' || ('a' ≤ c && c ≤ 'f') || ('A' ≤ c && c ≤ 'F')
  | '0' :: s => s.all fun c => c = '_' || ('0' ≤ c && c ≤ '7')
  | s =>
    let parts := s.splitOn ':'
    isDigits (parts.headD []) && (parts.drop 1).all isSixtieth

/-- The text is a whole number. -/
def isInt (s : Text) : Bool :=
  isUnsignedInt (unsigned s)

/-- The text is a date, in two digits each for month and day, or a date and a time. -/
def isTimestamp (s : Text) : Bool :=
  match Timestamp.read? s with
  | some t => t.time.isSome || s.length = 10
  | none => false

/-- The tag of a text that has none written. -/
def ofText (s : Text) : Tag :=
  if isBool s then .bool
  else if isFloat s then .float
  else if isInt s then .int
  else if s = ['<', '<'] then .merge
  else if isNull s then .null
  else if isTimestamp s then .timestamp
  else if s = ['='] then .value
  else if s = ['!'] || s = ['&'] || s = ['*'] then ofName (own ++ ['y', 'a', 'm', 'l'])
  else .str

/-- The tag of a scalar that has none written. A line feed at its end does not change its form, unless there
    is nothing else in it. -/
def ofScalar (s : CodePoints) : Tag :=
  match s.text? with
  | none => .str
  | some s => if s = ['\n'] then .str else ofText (withoutLineFeed s)

end Tag
end SearchQuery.Yaml
