/-!
Query text is a list of characters: every stage of the reader cuts it at its first character. This file
holds the type, classes of characters given by ranges of code points, and cutting off what stands before the
last character of a class.
-/

namespace SearchQuery

/-- A piece of query text, character by character. -/
abbrev Text := List Char

/-- A class of characters: the code points between the two ends of a range, ends included. -/
abbrev Ranges := List (Nat × Nat)

/-- The character stands in one of the ranges. -/
def Ranges.has (ranges : Ranges) (c : Char) : Bool :=
  ranges.any fun (low, high) => low ≤ c.toNat && c.toNat ≤ high

namespace Text

/-- What follows the last character of the class, or all of the text if it has none. -/
def afterLast (p : Char → Bool) (s : Text) : Text :=
  (s.reverse.takeWhile fun c => !p c).reverse

/-- The texts one after another, with `sep` between two neighbours. -/
def joinWith (sep : Text) (texts : List Text) : Text :=
  (texts.intersperse sep).flatten

end Text
end SearchQuery
