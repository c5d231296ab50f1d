import SearchQuery.Text.Basic

/-!
Symbols typed in their full-width forms. A closing double quotation mark is read as the ASCII quote, and the
full-width brackets and the ideographic space as their ASCII forms. Quotes are normalized before phrases are
looked for and the other symbols after, so a phrase keeps its own brackets and spaces.
-/

namespace SearchQuery.Text

/-- The ASCII quote for a full-width closing quote; any other character stays. -/
def normalizeQuote (c : Char) : Char :=
  if c = '”' then '"' else c

/-- The ASCII form of a full-width bracket or an ideographic space; any other character stays. -/
def normalizeSymbol (c : Char) : Char :=
  if c = '（' then '(' else if c = '）' then ')' else if c = '\u3000' then ' ' else c

/-- The text with its quotes in ASCII. -/
def normalizeQuotes (s : Text) : Text :=
  s.map normalizeQuote

/-- The text with its brackets and ideographic spaces in ASCII. -/
def normalizeSymbols (s : Text) : Text :=
  s.map normalizeSymbol

end SearchQuery.Text
