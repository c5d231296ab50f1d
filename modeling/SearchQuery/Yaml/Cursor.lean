import SearchQuery.Text.Basic
import SearchQuery.Yaml.Error

/-!
A place in a YAML document: the text from there on, and where the place is. Lines end with a line feed, a
next-line character or one of the Unicode separators of lines and paragraphs; a byte order mark takes no
column.
-/

namespace SearchQuery.Yaml

/-- The character ends a line. -/
def isBreak (c : Char) : Bool :=
  c = '\n' || c = '\x85' || c = '\u2028' || c = '\u2029'

/-- The character is a space or a tab. -/
def isSpace (c : Char) : Bool :=
  c = ' ' || c = '\t'

/-- Nothing follows, or a space, a tab or the end of the line. -/
def endsWord : Option Char → Bool
  | none => true
  | some c => isSpace c || isBreak c

/-- Nothing follows, or a space or the end of the line. -/
def endsPart : Option Char → Bool
  | none => true
  | some c => c = ' ' || isBreak c

/-- A place in a document. -/
structure Cursor where
  rest : Text
  index : Nat := 0
  line : Nat := 0
  column : Nat := 0

namespace Cursor

/-- The character at the place. -/
def peek (c : Cursor) : Option Char :=
  c.rest.head?

/-- The character so many places further on. -/
def peekAt (c : Cursor) (n : Nat) : Option Char :=
  c.rest[n]?

/-- The error of what is met at the place. Where the text ends, nothing is met but its end. -/
def error (c : Cursor) (p : Problem) : Error :=
  .problem (if c.peek.isNone then .unfinished else p)

/-- The place after the next character. -/
def next (c : Cursor) : Cursor :=
  match c.rest with
  | [] => c
  | ch :: rest =>
    if isBreak ch then ⟨rest, c.index + 1, c.line + 1, 0⟩
    else ⟨rest, c.index + 1, c.line, if ch = '\ufeff' then c.column else c.column + 1⟩

/-- The place so many characters further on. -/
def skip (c : Cursor) : Nat → Cursor
  | 0 => c
  | n + 1 => c.next.skip n

/-- The run of characters of a class, and the place after it. -/
def span (c : Cursor) (p : Char → Bool) : Text × Cursor :=
  let run := c.rest.takeWhile p
  (run, c.skip run.length)

/-- The place after the spaces. -/
def skipSpaces (c : Cursor) : Cursor :=
  (c.span (· = ' ')).2

/-- The place after the rest of the line. -/
def skipLine (c : Cursor) : Cursor :=
  (c.span fun ch => !isBreak ch).2

/-- The end of the line at the place, as text, and the place after it. -/
def lineBreak? (c : Cursor) : Option (Char × Cursor) :=
  match c.peek with
  | some ch => if isBreak ch then some (if ch = '\x85' then '\n' else ch, c.next) else none
  | none => none

/-- The given marker stands at the place as a word. -/
def atMarker (c : Cursor) (marker : Text) : Bool :=
  c.rest.take 3 == marker && endsWord (c.peekAt 3)

/-- A marker of the start or end of a document stands at the place. -/
def atDocumentMarker (c : Cursor) : Bool :=
  c.atMarker ['-', '-', '-'] || c.atMarker ['.', '.', '.']

/-- The place after spaces and a comment, which must end the line, and after the end of the line. -/
def restOfLine? (c : Cursor) : Option Cursor :=
  let c := c.skipSpaces
  let c := if c.peek = some '#' then c.skipLine else c
  match c.peek with
  | none => some c
  | some _ => c.lineBreak?.map (·.2)

end Cursor
end SearchQuery.Yaml
