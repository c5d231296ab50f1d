import SearchQuery.Text.Utf8
import SearchQuery.Yaml.Cursor
import SearchQuery.Yaml.Error

/-!
The tokens of a YAML document, and those that are read by their first character alone: tags, the names of
anchors and aliases, and directives.
-/

namespace SearchQuery.Yaml

/-- A token of a document. -/
inductive Token where
  | version (major minor : Nat)
  | tagHandle (handle uri : Text)
  | otherDirective
  | documentStart
  | documentEnd
  | blockSequenceStart
  | blockMappingStart
  | blockEnd
  | flowSequenceStart
  | flowSequenceEnd
  | flowMappingStart
  | flowMappingEnd
  | blockEntry
  | flowEntry
  | key
  | value
  | alias (anchor : Text)
  | anchor (anchor : Text)
  | tag (handle : Option Text) (suffix : Text)
  | scalar (text : CodePoints) (plain : Bool)
deriving Repr, DecidableEq

namespace Token

/-- The character may stand in a name. -/
def isNameChar (c : Char) : Bool :=
  c.isAlphanum || c = '-' || c = '_'

/-- The character may stand in the address of a tag. -/
def isUriChar (c : Char) : Bool :=
  c.isAlphanum || "-;/?:@&=+$,_.!~*'()[]%".toList.contains c

/-- The bytes of the percent escapes at the front of a text, and the text after them. -/
def uriBytes : Text → Option (List UInt8 × Text)
  | '%' :: a :: b :: s =>
    match hexValue? a, hexValue? b with
    | some high, some low =>
      match uriBytes s with
      | some (bytes, rest) => some ((16 * high + low).toUInt8 :: bytes, rest)
      | none => none
    | _, _ => none
  | '%' :: _ => none
  | s => some ([], s)

/-- An address with the characters that its percent escapes spell. -/
def decodeUri : (bound : Nat) → Text → Option Text
  | 0, _ => none
  | _, [] => some []
  | bound + 1, '%' :: s => do
    let (bytes, rest) ← uriBytes ('%' :: s)
    let s ← (Utf8.decode bytes).toOption
    let later ← decodeUri bound rest
    return s ++ later
  | bound + 1, c :: s => (decodeUri bound s).map (c :: ·)

/-- The address of a tag, and the place after it. -/
def readUri (c : Cursor) : Except Error (Text × Cursor) :=
  let (raw, c) := c.span isUriChar
  match decodeUri (raw.length + 1) raw with
  | some (ch :: s) => .ok (ch :: s, c)
  | some [] => .error (c.error .tag)
  | none => .error (.problem .tag)

/-- The handle of a tag from its exclamation mark on, and the place after it. -/
def readHandle (c : Cursor) : Except Error (Text × Cursor) :=
  if c.peek ≠ some '!' then .error (c.error .tag)
  else if c.peekAt 1 = some ' ' then .ok (['!'], c.next)
  else
    let (name, after) := c.next.span isNameChar
    if after.peek = some '!' then .ok ('!' :: name ++ ['!'], after.next) else .error (after.error .tag)

/-- The handle at the front of a tag is written out: another exclamation mark follows in the same word. -/
def hasHandle : Text → Bool
  | [] => false
  | c :: s => if c = ' ' || isBreak c then false else c = '!' || hasHandle s

/-- A tag from its exclamation mark on. -/
def readTag (c : Cursor) : Except Error (Token × Cursor) := do
  let (token, c) ←
    if c.peekAt 1 = some '<' then do
      let (suffix, c) ← readUri (c.skip 2)
      if c.peek = some '>' then pure (Token.tag none suffix, c.next) else .error (c.error .tag)
    else if endsWord (c.peekAt 1) then pure (Token.tag none ['!'], c.next)
    else do
      let (prefixed, c) ← if hasHandle (c.rest.drop 1) then readHandle c else pure (['!'], c.next)
      let (suffix, c) ← readUri c
      pure (Token.tag (some prefixed) suffix, c)
  if endsPart c.peek then return (token, c) else .error (.problem .tag)

/-- The name of an anchor or alias after its indicator, and the place after it. -/
def readName (c : Cursor) : Except Error (Text × Cursor) :=
  let (name, c) := c.next.span isNameChar
  let ends := endsWord c.peek || c.peek.any ("?:,]\x7d%@\x60".toList.contains)
  if name.isEmpty || !ends then .error (c.error .name) else .ok (name, c)

/-- A decimal number, and the place after it. -/
def readNumber (c : Cursor) : Except Error (Nat × Cursor) :=
  let (digits, c) := c.span Char.isDigit
  if digits.isEmpty then .error (c.error .directive) else .ok (Numeral.value digits, c)

/-- A directive from its percent sign on. -/
def readDirective (c : Cursor) : Except Error (Token × Cursor) := do
  let (name, c) := c.next.span isNameChar
  if name.isEmpty || !endsPart c.peek then .error (c.error .directive)
  let (token, c) ←
    if name = ['Y', 'A', 'M', 'L'] then do
      let (major, c) ← readNumber c.skipSpaces
      if c.peek ≠ some '.' then .error (c.error .directive)
      let (minor, c) ← readNumber c.next
      pure (Token.version major minor, c)
    else if name = ['T', 'A', 'G'] then do
      let (written, c) ← readHandle c.skipSpaces
      if c.peek ≠ some ' ' then .error (c.error .directive)
      let (address, c) ← readUri c.skipSpaces
      pure (Token.tagHandle written address, c)
    else pure (Token.otherDirective, c.skipLine)
  if !endsPart c.peek then .error (.problem .directive)
  match c.restOfLine? with
  | some c => return (token, c)
  | none => .error (.problem .directive)

end Token
end SearchQuery.Yaml
