import SearchQuery.Text.Basic

/-!
Blank characters separate words, and a text of blank characters alone means nothing. The class holds the
control characters that move the print position, the information separators, and every Unicode space; the
zero-width space and the byte order mark are not in it.
-/

namespace SearchQuery

/-- The blank characters. -/
def blankRanges : Ranges :=
  [(0x9, 0xD), (0x1C, 0x20), (0x85, 0x85), (0xA0, 0xA0), (0x1680, 0x1680), (0x2000, 0x200A),
   (0x2028, 0x2029), (0x202F, 0x202F), (0x205F, 0x205F), (0x3000, 0x3000)]

/-- The character separates words. -/
def isBlank (c : Char) : Bool :=
  blankRanges.has c

namespace Text

/-- The text has a character that is not blank. -/
def notBlank (s : Text) : Bool :=
  s.any fun c => !isBlank c

/-- The text without the blanks at its start. -/
def trimStart (s : Text) : Text :=
  s.dropWhile isBlank

/-- The text without the blanks at its ends. -/
def trim (s : Text) : Text :=
  (s.trimStart.reverse.dropWhile isBlank).reverse

/-- The word that a text starts with, empty if it starts with a blank or is empty, and the words that
    follow it. -/
def wordsFrom : Text → Text × List Text
  | [] => ([], [])
  | c :: s =>
    let (word, later) := wordsFrom s
    if isBlank c then ([], if word.isEmpty then later else word :: later) else (c :: word, later)

/-- The longest runs of characters that are not blank, in order. -/
def words (s : Text) : List Text :=
  let (word, later) := wordsFrom s
  if word.isEmpty then later else word :: later

end Text
end SearchQuery
