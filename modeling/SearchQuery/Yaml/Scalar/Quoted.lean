import SearchQuery.Text.Escape
import SearchQuery.Yaml.Error
import SearchQuery.Yaml.Scalar.Plain

/-!
Quoted scalars. In apostrophes a doubled apostrophe stands for one; in double quotes a backslash begins an
escape. Line breaks are folded as in plain scalars, unless they are escaped.
-/

namespace SearchQuery.Yaml.Scalar

/-- The character that a one-letter escape stands for. -/
def escape? : Char → Option Char
  | '0' => some '\x00'
  | 'a' => some '\x07'
  | 'b' => some '\x08'
  | 't' => some '\t'
  | '\t' => some '\t'
  | 'n' => some '\n'
  | 'v' => some '\x0b'
  | 'f' => some '\x0c'
  | 'r' => some '\r'
  | 'e' => some '\x1b'
  | ' ' => some ' '
  | '"' => some '"'
  | '\\' => some '\\'
  | '/' => some '/'
  | 'N' => some '\x85'
  | '_' => some '\xa0'
  | 'L' => some '\u2028'
  | 'P' => some '\u2029'
  | _ => none

/-- How many hexadecimal digits an escape of a code point has. -/
def escapeWidth? : Char → Option Nat
  | 'x' => some 2
  | 'u' => some 4
  | 'U' => some 8
  | _ => none

/-- The code point of hexadecimal digits. -/
def codePoint (width : Nat) (digits : Text) : Except Error CodePoint :=
  if !digits.all fun d => (hexValue? d).isSome then .error (.problem .escape)
  else if digits.length ≠ width then .error (.problem .unfinished)
  else
    let n := digits.foldl (fun n d => 16 * n + (hexValue? d).getD 0) 0
    match CodePoint.ofNat? n with
    | some p => .ok p
    | none => .error (.fault (if n < 0x80000000 then .codePoint else .codePointSize))

/-- Empty lines inside a quoted scalar: the line breaks, and the place after them and the spaces of the next
    line. -/
def quotedBreaks : (bound : Nat) → Cursor → Except Error (Text × Cursor)
  | 0, c => .ok ([], c)
  | bound + 1, c =>
    if c.atDocumentMarker then .error (.problem .markerInScalar)
    else
      let c := (c.span isSpace).2
      match c.lineBreak? with
      | none => .ok ([], c)
      | some (b, c) => do
        let (later, c) ← quotedBreaks bound c
        return (b :: later, c)

/-- What an escape after a backslash stands for, and the place after it. -/
def escaped (c : Cursor) : Except Error (CodePoints × Cursor) :=
  match c.peek with
  | none => .error (.problem .unfinished)
  | some ch =>
    match escape? ch, escapeWidth? ch with
    | some meant, _ => .ok ([.char meant], c.next)
    | none, some width => do
      let meant ← codePoint width (c.next.rest.take width)
      return ([meant], c.next.skip width)
    | none, none =>
      match c.lineBreak? with
      | some (_, c) => (quotedBreaks (c.rest.length + 1) c).map fun (breaks, c) => (breaks.codePoints, c)
      | none => .error (.problem .escape)

/-- Reads on a quoted scalar, given its text so far in reverse. -/
def quotedFrom (double : Bool) :
    (bound : Nat) → (text : CodePoints) → Cursor → Except Error (CodePoints × Cursor)
  | 0, _, _ => .error (.problem .unfinished)
  | bound + 1, text, c =>
    match c.peek with
    | none => .error (.problem .unfinished)
    | some ch =>
      if ch = (if double then '"' else '\'') then
        if !double && c.peekAt 1 = some '\'' then quotedFrom double bound (.char '\'' :: text) (c.skip 2)
        else .ok (text.reverse, c.next)
      else if double && ch = '\\' then do
        let (meant, c) ← escaped c.next
        quotedFrom double bound (meant.reverse ++ text) c
      else if isSpace ch || isBreak ch then
        let (spaces, c) := c.span isSpace
        match c.lineBreak? with
        | some (b, c) => do
          let (later, c) ← quotedBreaks (c.rest.length + 1) c
          quotedFrom double bound ((fold b later).codePoints.reverse ++ text) c
        | none => quotedFrom double bound (spaces.codePoints.reverse ++ text) c
      else quotedFrom double bound (.char ch :: text) c.next

/-- A quoted scalar from its opening quote on: its text, and the place after it. -/
def quoted (double : Bool) (c : Cursor) : Except Error (CodePoints × Cursor) :=
  quotedFrom double (c.rest.length + 1) [] c.next

end SearchQuery.Yaml.Scalar
