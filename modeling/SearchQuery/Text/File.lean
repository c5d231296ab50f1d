import SearchQuery.Text.Utf8

/-!
The text of a file. A file is asked for a number of characters at a time and read in blocks of bytes, as many
of them as the characters still missing are expected to need. A character that a block cuts short is held over
to the next one. Bytes that are no text are refused with their place counted from the start of their block,
or of what was held over to it; what was asked for before is read all the same. Every line end is made a line
feed.
-/

namespace SearchQuery.File

/-- The text with a line feed for each line end: a carriage return, with or without a line feed after it,
    is one. -/
def normalizeLineEnds : Text → Text
  | [] => []
  | '\r' :: '\n' :: s => '\n' :: normalizeLineEnds s
  | c :: s => (if c = '\r' then '\n' else c) :: normalizeLineEnds s

/-- How many characters a file is asked for at a time. -/
def portion : Nat := 4096

/-- The least number of bytes in a block that is not the last. -/
def leastBlock : Nat := 8192

/-- What is known between two blocks. -/
structure State where
  /-- The bytes not read yet. -/
  bytes : List UInt8
  /-- The bytes of a character that the last block cut short. -/
  held : List UInt8 := []
  /-- The last block ended with a carriage return, which is held over too. -/
  heldReturn : Bool := false
  /-- The bytes and the characters of the last block. -/
  lastBlock : Nat × Nat := (0, 0)
  /-- The number of characters still missing of the portion asked for. -/
  missing : Nat := portion

namespace State

/-- The number of bytes in the next block. -/
def blockSize (state : State) : Nat :=
  let (bytes, characters) := state.lastBlock
  max leastBlock (bytes * state.missing / characters)

/-- The characters missing after a number of them has come: the portions that they fill are asked for
    one after another. -/
def missingAfter (missing count : Nat) : Nat :=
  if count < missing then missing - count else portion - (count - missing) % portion

end State

/-- The first two of the three bytes that a surrogate would have. They are no start of a character. -/
def isSurrogateStart : List UInt8 → Bool
  | [first, second] => first = 0xED && 0xA0 ≤ second && second ≤ 0xBF
  | _ => false

/-- The text of a block, and the bytes at its end that are held over: those of a character that is cut short,
    and those of a surrogate, which are refused once the next block has come. Nothing is held over from the
    last block. -/
def decodeBlock (isLast : Bool) (bytes : List UInt8) : Except Utf8.Fault (Text × List UInt8) :=
  match Utf8.decodeFrom 0 bytes with
  | (text, none) => .ok (text, [])
  | (text, some fault) =>
    let rest := bytes.drop fault.position
    if !isLast && (fault.reason = .ending || isSurrogateStart rest) then .ok (text, rest) else .error fault

/-- The text of what is left of a file, read in at most `bound` blocks, and the fault that ends it. -/
def readBlocks : (bound : Nat) → State → Text × Option Utf8.Fault
  | 0, _ => ([], none)
  | bound + 1, state =>
    let size := state.blockSize
    let block := state.bytes.take size
    match decodeBlock block.isEmpty (state.held ++ block) with
    | .error fault => ([], some fault)
    | .ok (text, held) =>
      let text := if state.heldReturn then '\r' :: text else text
      if block.isEmpty then (normalizeLineEnds text, none)
      else
        let heldReturn := text.getLast? = some '\r'
        let text := normalizeLineEnds (if heldReturn then text.dropLast else text)
        let (later, fault) := readBlocks bound
          { bytes := state.bytes.drop size, held, heldReturn
            lastBlock := (block.length, text.length)
            missing := State.missingAfter state.missing text.length }
        (text ++ later, fault)

/-- A text in portions, at most `bound` of them. -/
def portionsOf : (bound : Nat) → Text → List Text
  | 0, _ => []
  | bound + 1, s => if s.isEmpty then [] else s.take portion :: portionsOf bound (s.drop portion)

/-- What can be read of a file: its portions, all but the last of them full, or the full ones before a
    fault. -/
structure Contents where
  portions : List Text
  fault : Option Utf8.Fault

/-- What can be read of a file. -/
def read (bytes : List UInt8) : Contents :=
  let (text, fault) := readBlocks (bytes.length + 1) { bytes }
  let count := text.length / portion
  let portions := portionsOf (count + 1) text
  { portions := if fault.isSome then portions.take count else portions, fault }

end SearchQuery.File
