import SearchQuery.Text.Quoted

/-!
Text that escapes have spelled out. Its code points are characters, and surrogates among them, which no
encoded text can hold. Between quotes a surrogate is given by its code point.
-/

namespace SearchQuery

/-- A code point: a character, or one of the surrogates. -/
inductive CodePoint where
  | char (c : Char)
  | surrogate (n : Fin 0x800)
deriving Repr, DecidableEq

/-- A text, code point by code point. -/
abbrev CodePoints := List CodePoint

namespace CodePoint

/-- The code point of a number, if it is below `0x110000`. -/
def ofNat? (n : Nat) : Option CodePoint :=
  if h : 0xD800 ≤ n ∧ n < 0xE000 then some (.surrogate ⟨n - 0xD800, by omega⟩)
  else if n.isValidChar then some (.char (Char.ofNat n)) else none

/-- The character of a code point that is no surrogate. -/
def char? : CodePoint → Option Char
  | .char c => some c
  | .surrogate _ => none

/-- A code point between quotes of the given kind. -/
def quotedIn (quote : Char) : CodePoint → Text
  | .char c => Text.quoteChar quote c
  | .surrogate n => '\\' :: 'u' :: hexDigits 4 (0xD800 + n.val)

end CodePoint

/-- A text as code points. -/
def Text.codePoints (s : Text) : CodePoints :=
  s.map .char

namespace CodePoints

/-- The text of code points without a surrogate among them. -/
def text? (s : CodePoints) : Option Text :=
  s.mapM CodePoint.char?

/-- The code points in quotes, as messages show them. -/
def quoted (s : CodePoints) : Text :=
  let quote := Text.quoteFor (s.filterMap CodePoint.char?)
  quote :: s.flatMap (CodePoint.quotedIn quote) ++ [quote]

end CodePoints
end SearchQuery
