import SearchQuery.Yaml.Cursor

/-!
Plain scalars run on to the next indicator, over the ends of lines. A line break in one is folded to a space,
further empty lines are kept. Every step takes a character, so the length of the rest bounds the loops.
-/

namespace SearchQuery.Yaml.Scalar

/-- A plain scalar cannot go on with this character before that one. -/
def endsPlain (inFlow : Bool) (c : Char) (following : Option Char) : Bool :=
  isSpace c || isBreak c ||
    (c = ':' && (endsWord following || (inFlow && following.any [',', '[', ']', '\x7b', '\x7d'].contains))) ||
    (inFlow && [',', '?', '[', ']', '\x7b', '\x7d'].contains c)

/-- The run of characters that a plain scalar goes on with. -/
def plainRun (inFlow : Bool) : Text → Text
  | [] => []
  | c :: s => if endsPlain inFlow c s.head? then [] else c :: plainRun inFlow s

/-- Empty lines and the spaces before the next text, up to a document marker: the line breaks, unless a
    marker is met, and the place after them. -/
def plainBreaks : (bound : Nat) → Cursor → Option Text × Cursor
  | 0, c => (some [], c)
  | bound + 1, c =>
    match c.lineBreak? with
    | some (b, c) =>
      if c.atDocumentMarker then (none, c)
      else
        let (later, c) := plainBreaks bound c
        (later.map (b :: ·), c)
    | none => if c.peek = some ' ' then plainBreaks bound c.next else (some [], c)

/-- What a line break and the breaks after it are folded to. -/
def fold (first : Char) (later : Text) : Text :=
  if first ≠ '\n' then first :: later else if later.isEmpty then [' '] else later

/-- The text that spaces and line breaks inside a plain scalar stand for, whether a line was ended, and the
    place after them. Nothing stands there if the scalar cannot go on. -/
def plainSpaces (c : Cursor) : Text × Bool × Cursor :=
  let (spaces, c) := c.span (· = ' ')
  match c.lineBreak? with
  | none => (spaces, false, c)
  | some (b, c) =>
    if c.atDocumentMarker then ([], true, c)
    else
      match plainBreaks (c.rest.length + 1) c with
      | (none, c) => ([], true, c)
      | (some later, c) => (fold b later, true, c)

/-- Reads on a plain scalar: the text so far, the spaces after it, and whether a line ended last. In a block
    the scalar ends before a line that is indented too little. -/
def plainFrom (inFlow : Bool) (indent : Int) :
    (bound : Nat) → (text spaces : Text) → (ended : Bool) → Cursor → Text × Bool × Cursor
  | 0, text, _, ended, c => (text, ended, c)
  | bound + 1, text, spaces, ended, c =>
    let run := plainRun inFlow c.rest
    if c.peek = some '#' || run.isEmpty then (text, ended, c)
    else
      let text := text ++ spaces ++ run
      let (spaces, ended, c) := plainSpaces (c.skip run.length)
      if spaces.isEmpty || c.peek = some '#' || (!inFlow && (c.column : Int) < indent) then (text, ended, c)
      else plainFrom inFlow indent bound text spaces ended c

/-- A plain scalar: its text, whether it ended with its line, and the place after it. -/
def plain (inFlow : Bool) (indent : Int) (c : Cursor) : Text × Bool × Cursor :=
  plainFrom inFlow indent (c.rest.length + 1) [] [] false c

end SearchQuery.Yaml.Scalar
