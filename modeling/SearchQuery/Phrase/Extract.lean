import SearchQuery.Text.Pattern
import SearchQuery.Phrase.Tables

/-!
Phrases are taken out of a query text before its words and brackets are looked at, and placeholders with a
space on either side are left in their place. Negated phrases are looked for in the whole text before plain
ones, so a dash before a quote always negates, and a plain phrase never spans a placeholder. A phrase of
blanks is deleted, and a quote that nothing closes stays.
-/

namespace SearchQuery.Phrase

/-- A dash and a quoted phrase. -/
def negativePattern : Pattern Text where
  read
    | '-' :: '"' :: s => Text.upTo? (· ≠ '"') '"' s
    | _ => none
  shorter {s rest found} h := by
    split at h
    · have := Text.length_lt_of_upTo? h
      simp only [List.length_cons]
      omega
    · cases h

/-- A quoted phrase in which no placeholder opens. -/
def positivePattern : Pattern Text where
  read
    | '"' :: s => Text.upTo? (fun c => c ≠ '"' && c ≠ openMark) '"' s
    | _ => none
  shorter {s rest found} h := by
    split at h
    · have := Text.length_lt_of_upTo? h
      simp only [List.length_cons]
      omega
    · cases h

/-- Enters the finds of a text into the table of the tag, one after another, and gives the text with their
    placeholders, each with a space on either side. A blank find is deleted. -/
def Tables.enter (tag : Text) : Tables → List (Piece Text) → Text × Tables
  | tables, [] => ([], tables)
  | tables, .plain c :: ps =>
    let (text, tables) := enter tag tables ps
    (c :: text, tables)
  | tables, .found body :: ps =>
    if body.notBlank then
      let (tables, mark) := tables.add tag body
      let (text, tables) := enter tag tables ps
      (' ' :: mark ++ ' ' :: text, tables)
    else enter tag tables ps

/-- The text with placeholders for its phrases, and the tables of the phrases. Characters of the text that
    delimit placeholders are deleted first, so no placeholder is forged. -/
def extract (s : Text) : Text × Tables :=
  let (s, tables) := Tables.enter negativeTag {} (negativePattern.pieces (s.filter fun c => !isMark c))
  Tables.enter positiveTag tables (positivePattern.pieces s)

end SearchQuery.Phrase
