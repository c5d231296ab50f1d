import SearchQuery.Yaml.Cursor
import SearchQuery.Yaml.Error

/-!
Block scalars, literal or folded: the lines after their header that are indented at least as deep as the first
of them. A header may give the indentation, and says what becomes of the line breaks at the end.
-/

namespace SearchQuery.Yaml.Scalar

/-- What becomes of the line breaks at the end of a block. -/
inductive Chomping where
  | clip
  | strip
  | keep
deriving DecidableEq, Repr

/-- The sign of a header. -/
def chomping? : Option Char → Option Chomping
  | some '+' => some .keep
  | some '-' => some .strip
  | _ => none

/-- The digit of a header. -/
def increment? (ch : Option Char) : Option Nat :=
  match ch with
  | some d => if '0' ≤ d && d ≤ '9' then some (d.toNat - 0x30) else none
  | none => none

/-- The header of a block: its sign and its digit in either order, and the place of its first line. -/
def blockHeader (c : Cursor) : Except Error (Chomping × Option Nat × Cursor) :=
  let (sign, digit, c) :=
    match chomping? c.peek with
    | some sign =>
      match increment? c.next.peek with
      | some digit => (sign, some digit, c.skip 2)
      | none => (sign, none, c.next)
    | none =>
      match increment? c.peek with
      | some digit =>
        match chomping? c.next.peek with
        | some sign => (sign, some digit, c.skip 2)
        | none => (.clip, some digit, c.next)
      | none => (.clip, none, c)
  if digit = some 0 || !endsPart c.peek then .error (.problem .blockHeader)
  else
    match c.restOfLine? with
    | some c => .ok (sign, digit, c)
    | none => .error (.problem .blockHeader)

/-- The empty lines at the start of a block whose indentation is not given: their breaks, the widest
    indentation met, and the place of the first text. -/
def blockIndentation : (bound : Nat) → (breaks : Text) → (widest : Nat) → Cursor → Text × Nat × Cursor
  | 0, breaks, widest, c => (breaks, widest, c)
  | bound + 1, breaks, widest, c =>
    if c.peek = some ' ' then blockIndentation bound breaks (max widest c.next.column) c.next
    else
      match c.lineBreak? with
      | some (b, c) => blockIndentation bound (breaks ++ [b]) widest c
      | none => (breaks, widest, c)

/-- The place after the indentation of a line, at most `indent` spaces. -/
def skipIndent (indent : Nat) (c : Cursor) : Cursor :=
  c.skip (min (indent - c.column) (c.rest.takeWhile (· = ' ')).length)

/-- The empty lines of a block: their breaks, and the place after the indentation of the next line. -/
def blockBreaks (indent : Nat) : (bound : Nat) → Cursor → Text × Cursor
  | 0, c => ([], c)
  | bound + 1, c =>
    let c := skipIndent indent c
    match c.lineBreak? with
    | some (b, c) =>
      let (later, c) := blockBreaks indent bound c
      (b :: later, c)
    | none => ([], c)

/-- The lines of a block: their text, the break that ends the last of them and those that follow it, and the
    place after the block. -/
def blockLines (folded : Bool) (indent : Nat) :
    (bound : Nat) → (text breaks last : Text) → Cursor → Text × Text × Text × Cursor
  | 0, text, breaks, last, c => (text, last, breaks, c)
  | bound + 1, text, breaks, last, c =>
    if c.column ≠ indent || c.peek.isNone then (text, last, breaks, c)
    else
      let startsText (c : Cursor) : Bool := !c.peek.any isSpace
      let unindented := startsText c
      let line := c.rest.takeWhile fun ch => !isBreak ch
      let text := text ++ breaks ++ line
      let c := c.skip line.length
      let (last, c) :=
        match c.lineBreak? with
        | some (b, c) => ([b], c)
        | none => ([], c)
      let (breaks, c) := blockBreaks indent (c.rest.length + 1) c
      if c.column = indent && c.peek.isSome then
        let text :=
          if folded && last = ['\n'] && unindented && startsText c then
            if breaks.isEmpty then text ++ [' '] else text
          else text ++ last
        blockLines folded indent bound text breaks last c
      else (text, last, breaks, c)

/-- A block scalar from its indicator on: its text, and the place after it. `parent` is the indentation of
    the collection around it. -/
def block (folded : Bool) (parent : Int) (c : Cursor) : Except Error (Text × Cursor) := do
  let (sign, digit, c) ← blockHeader c.next
  let least := (max 1 (parent + 1)).toNat
  let bound := c.rest.length + 1
  let (indent, breaks, c) :=
    match digit with
    | some digit =>
      let indent := least + digit - 1
      let (breaks, c) := blockBreaks indent bound c
      (indent, breaks, c)
    | none =>
      let (breaks, widest, c) := blockIndentation bound [] 0 c
      (max least widest, breaks, c)
  let (text, last, breaks, c) := blockLines folded indent bound [] breaks [] c
  let ending :=
    match sign with
    | .strip => []
    | .clip => last
    | .keep => last ++ breaks
  return (text ++ ending, c)

end SearchQuery.Yaml.Scalar
