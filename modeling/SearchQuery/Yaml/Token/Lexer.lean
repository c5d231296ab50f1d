import SearchQuery.Yaml.Input
import SearchQuery.Yaml.Scalar.Block
import SearchQuery.Yaml.Scalar.Quoted
import SearchQuery.Yaml.Token.Basic

/-!
From the text of a YAML document to its tokens. Indentation opens and closes block collections. A key is known
as such only at its colon, so the place where a key may have begun is kept for each depth of flow collections,
and the tokens that open the key are entered there when the colon comes. Such a place lapses at the end of its
line or after 1024 characters; where the indentation leaves no other reading, that is an error. What stands
before an error is read for what it is, so a document has the first error that is met from its start.
-/

namespace SearchQuery.Yaml

/-- A place where a key may have begun: the number of tokens before it, and where it is. A required key must
    be followed by its colon. -/
structure PossibleKey where
  before : Nat
  required : Bool
  index : Nat
  line : Nat
  column : Nat

/-- The colon of the key can no longer come: the place is on another line or too far on. -/
def PossibleKey.isPast (key : PossibleKey) (c : Cursor) : Bool :=
  key.line ≠ c.line || key.index + 1024 < c.index

/-- What is known between two tokens: the tokens so far, the indentation of the block collections that are
    open, the possible key of each flow collection that is open and of the block around them, innermost
    first, and whether a key may begin here. -/
structure Lexer where
  cursor : Cursor
  tokens : Array Token := #[]
  indent : Int := -1
  outer : List Int := []
  possible : Option PossibleKey := none
  enclosing : List (Option PossibleKey) := []
  keyAllowed : Bool := true

namespace Lexer

/-- A flow collection is open. -/
def inFlow (l : Lexer) : Bool :=
  !l.enclosing.isEmpty

/-- The lexer after a token that ends at a place. -/
def push (l : Lexer) (token : Token) (cursor : Cursor) : Lexer :=
  { l with tokens := l.tokens.push token, cursor }

/-- A possible key gives way to what is met at a place, if it need not be one. -/
def lapse (c : Cursor) : Option PossibleKey → Except Error (Option PossibleKey)
  | some key => if key.required then .error (c.error .missingColon) else .ok none
  | none => .ok none

/-- Possible keys on other lines or too far back lapse. -/
def lapseAt (c : Cursor) : Option PossibleKey → Except Error (Option PossibleKey)
  | some key => if key.isPast c then lapse c (some key) else .ok (some key)
  | none => .ok none

/-- All possible keys that are too far back lapse. -/
def lapseStale (l : Lexer) : Except Error Lexer := do
  let possible ← lapseAt l.cursor l.possible
  let enclosing ← l.enclosing.mapM (lapseAt l.cursor)
  return { l with possible, enclosing }

/-- The possible key of the innermost collection lapses. -/
def forgetKey (l : Lexer) : Except Error Lexer := do
  let possible ← lapse l.cursor l.possible
  return { l with possible }

/-- Notes that a key may begin here. -/
def noteKey (l : Lexer) : Except Error Lexer := do
  if l.keyAllowed then
    let l ← l.forgetKey
    let c := l.cursor
    let required := !l.inFlow && l.indent = c.column
    return { l with possible := some ⟨l.tokens.size, required, c.index, c.line, c.column⟩ }
  else return l

/-- Closes block collections that are indented deeper than a column. -/
def unwind (column : Int) : (outer : List Int) → Lexer → Lexer
  | outer, l =>
    if l.indent ≤ column then { l with outer }
    else
      match outer with
      | [] => { l with outer := [] }
      | indent :: outer =>
        unwind column outer { l with indent, tokens := l.tokens.push .blockEnd }

/-- Closes the block collections that a column ends. In a flow collection indentation means nothing. -/
def unwindTo (l : Lexer) (column : Int) : Lexer :=
  if l.inFlow then l else unwind column l.outer l

/-- Opens a block collection at a column, if it is deeper than the one around it. -/
def open? (l : Lexer) (column : Int) : Option Lexer :=
  if l.indent < column then some { l with outer := l.indent :: l.outer, indent := column } else none

/-- The place of the next token, after spaces, comments and empty lines; whether a line has ended before
    it. -/
def toNextToken : (bound : Nat) → (ended : Bool) → Cursor → Bool × Cursor
  | 0, ended, c => (ended, c)
  | bound + 1, ended, c =>
    let c := c.skipSpaces
    let c := if c.peek = some '#' then c.skipLine else c
    match c.lineBreak? with
    | some (_, c) => toNextToken bound true c
    | none => (ended, c)

/-! ### One token after another -/

/-- An indicator of the given length that allows a key after it or not, and ends a possible key before it. -/
def indicator (l : Lexer) (token : Token) (width : Nat) (keyAllowed : Bool) : Except Error Lexer := do
  let l ← l.forgetKey
  return { l with keyAllowed }.push token (l.cursor.skip width)

/-- A directive or a document marker, which closes all block collections. -/
def closeBlocks (l : Lexer) : Except Error Lexer := do
  let l ← (l.unwindTo (-1)).forgetKey
  return { l with keyAllowed := false }

/-- The start of a flow collection. -/
def openFlow (l : Lexer) (token : Token) : Except Error Lexer := do
  let l ← l.noteKey
  return { l with keyAllowed := true, possible := none, enclosing := l.possible :: l.enclosing }.push token
    l.cursor.next

/-- The end of a flow collection. -/
def closeFlow (l : Lexer) (token : Token) : Except Error Lexer := do
  let l ← l.forgetKey
  match l.enclosing with
  | [] => .error (l.cursor.next.error .content)
  | possible :: enclosing => return { l with keyAllowed := false, possible, enclosing }.push token l.cursor.next

/-- The dash of a sequence entry. -/
def entry (l : Lexer) : Except Error Lexer := do
  if l.inFlow then l.indicator .blockEntry 1 true
  else if !l.keyAllowed then .error (l.cursor.next.error .entryNotAllowed)
  else
    match l.open? l.cursor.column with
    | some l => (l.push .blockSequenceStart l.cursor).indicator .blockEntry 1 true
    | none => l.indicator .blockEntry 1 true

/-- The question mark of a key. -/
def key (l : Lexer) : Except Error Lexer := do
  if l.inFlow then l.indicator .key 1 false
  else if !l.keyAllowed then .error (l.cursor.next.error .keyNotAllowed)
  else
    match l.open? l.cursor.column with
    | some l => (l.push .blockMappingStart l.cursor).indicator .key 1 true
    | none => l.indicator .key 1 true

/-- The colon of a value. -/
def value (l : Lexer) : Except Error Lexer := do
  match l.possible with
  | some possible =>
    let tokens := l.tokens.insertIdxIfInBounds possible.before .key
    let l := { l with possible := none, keyAllowed := false, tokens }
    let l :=
      if l.inFlow then l
      else
        match l.open? possible.column with
        | some l => { l with tokens := l.tokens.insertIdxIfInBounds possible.before .blockMappingStart }
        | none => l
    return l.push .value l.cursor.next
  | none =>
    if l.inFlow then l.indicator .value 1 false
    else if !l.keyAllowed then .error (l.cursor.next.error .valueNotAllowed)
    else
      match l.open? l.cursor.column with
      | some l => (l.push .blockMappingStart l.cursor).indicator .value 1 true
      | none => l.indicator .value 1 true

/-- A token that may be a key or start one. -/
def content (l : Lexer) (read : Cursor → Except Error (Token × Cursor)) : Except Error Lexer := do
  let l ← l.noteKey
  let (token, c) ← read l.cursor
  return { l with keyAllowed := false }.push token c

/-- The character starts a plain scalar, given what follows it. -/
def startsPlain (inFlow : Bool) (c : Char) (following : Option Char) : Bool :=
  let indicators := "-?:,[]\x7b\x7d#&*!|>'\"%@\x60".toList
  (!isSpace c && !isBreak c && !indicators.contains c) ||
    (!endsWord following && (c = '-' || (!inFlow && (c = '?' || c = ':'))))

/-- Reads one token, or none at the end of the document. -/
def step (l : Lexer) : Except Error (Lexer × Bool) := do
  let bound := l.cursor.rest.length + 1
  let (ended, c) := toNextToken bound false l.cursor
  let l := { l with cursor := c, keyAllowed := l.keyAllowed || (ended && !l.inFlow) }
  let l ← l.lapseStale
  let l := l.unwindTo c.column
  let go (l : Except Error Lexer) : Except Error (Lexer × Bool) := l.map fun l => (l, true)
  match c.peek with
  | none =>
    let l ← l.closeBlocks
    return (l, false)
  | some ch =>
    let following := c.peekAt 1
    if ch = '%' && c.column = 0 then
      go do
        let l ← l.closeBlocks
        let (token, c) ← Token.readDirective l.cursor
        return l.push token c
    else if c.column = 0 && c.atMarker ['-', '-', '-'] then
      go do
        let l ← l.closeBlocks
        return l.push .documentStart (c.skip 3)
    else if c.column = 0 && c.atMarker ['.', '.', '.'] then
      go do
        let l ← l.closeBlocks
        return l.push .documentEnd (c.skip 3)
    else if ch = '[' then go (l.openFlow .flowSequenceStart)
    else if ch = '\x7b' then go (l.openFlow .flowMappingStart)
    else if ch = ']' then go (l.closeFlow .flowSequenceEnd)
    else if ch = '\x7d' then go (l.closeFlow .flowMappingEnd)
    else if ch = ',' then go (l.indicator .flowEntry 1 true)
    else if ch = '-' && endsWord following then go l.entry
    else if ch = '?' && (l.inFlow || endsWord following) then go l.key
    else if ch = ':' && (l.inFlow || endsWord following) then go l.value
    else if ch = '*' then go (l.content fun c => (Token.readName c).map fun (name, c) => (.alias name, c))
    else if ch = '&' then go (l.content fun c => (Token.readName c).map fun (name, c) => (.anchor name, c))
    else if ch = '!' then go (l.content Token.readTag)
    else if (ch = '|' || ch = '>') && !l.inFlow then
      go do
        let l ← l.forgetKey
        let (text, c) ← Scalar.block (ch = '>') l.indent l.cursor
        return { l with keyAllowed := true }.push (.scalar text.codePoints false) c
    else if ch = '\'' || ch = '"' then
      go (l.content fun c => (Scalar.quoted (ch = '"') c).map fun (text, c) => (.scalar text false, c))
    else if startsPlain l.inFlow ch following then
      go do
        let l ← l.noteKey
        let (text, ended, c) := Scalar.plain l.inFlow (l.indent + 1) l.cursor
        return { l with keyAllowed := ended }.push (.scalar text.codePoints true) c
    else .error (l.cursor.next.error (.character ch))

/-- The tokens before every place where a key may still turn out to have begun. -/
def settled (l : Lexer) : List Token :=
  let keys := (l.possible :: l.enclosing).filterMap (·.filter fun key => !key.isPast l.cursor)
  l.tokens.toList.take (keys.foldl (fun n key => min n key.before) l.tokens.size)

/-- The error that ends the tokens where a step has failed. What is not finished in the text that is known
    may be finished after it, but for the error that is met there. -/
def failure (ending : Option Failure) : Error → Failure
  | .problem .unfinished => ending.getD (.error (.problem .unfinished))
  | e => .error e

/-- Reads the tokens from here on, at most `bound` of them. If there is an error, only the settled tokens come
    before it. A token is read once the character after it is known, or if the document ends with it. -/
def run (ending : Option Failure) : (bound : Nat) → Lexer → List Token × Option Failure
  | 0, l => (l.settled, ending)
  | bound + 1, l =>
    match l.step with
    | .ok (next, more) =>
      if ending.isSome && next.cursor.peek.isNone then (l.settled, ending)
      else if more then run ending bound next
      else (next.tokens.toList, none)
    | .error e => (l.settled, some (failure ending e))

end Lexer

/-- The tokens of a document, and the failure that ends them, if there is one. A byte order mark at its start
    is passed over. -/
def Token.ofInput (input : Input) : List Token × Option Failure :=
  let c : Cursor := { rest := input.text }
  let c := if c.peek = some '\ufeff' then c.next else c
  Lexer.run input.ending (input.text.length + 2) { cursor := c }

end SearchQuery.Yaml
