import SearchQuery.Settings.Basic
import SearchQuery.Bracket.Collapse
import SearchQuery.Phrase.Extract
import SearchQuery.Phrase.Restore
import SearchQuery.Text.Symbols
import SearchQuery.Layer.Basic

/-!
Layers from collapsed text. A bracket placeholder becomes a group, negated if a dash stands right before it,
and the runs of text between placeholders become text nodes with their phrases restored, unless they are
blank. All of a level is read before the entries behind its groups are laid out, the last group first.
-/

namespace SearchQuery.Layer

/-- A bracket placeholder: its numeral, in decimal digits of any script. -/
def placeholderPattern : Pattern Text where
  read
    | '（' :: s =>
      match Text.upTo? isDecimal '）' s with
      | some (digits, rest) => if digits.isEmpty then none else some (digits, rest)
      | none => none
    | _ => none
  shorter {s rest found} h := by
    split at h
    · split at h
      · next hr =>
        split at h
        · cases h
        · simp only [Option.some.injEq, Prod.mk.injEq] at h
          have := Text.length_lt_of_upTo? hr
          rw [← h.2, List.length_cons]
          omega
      · cases h
    · cases h

/-- The character is a bracket of a placeholder. -/
def isFullWidthBracket (c : Char) : Bool :=
  c = '（' || c = '）'

/-- A node of a level whose groups are not laid out yet. -/
inductive Draft where
  | text (s : Text)
  | group (negated : Bool) (body : Text)
deriving Repr, DecidableEq

/-- The entry of the bracket table behind an index. -/
def entry (brackets : List Text) : Nat → Except LookupFault Text
  | 0 => .error (.bracket 0 brackets.length)
  | n + 1 =>
    match brackets[n]? with
    | some body => .ok body
    | none => .error (.bracket (n + 1) brackets.length)

/-- The entry of the bracket table behind a numeral. -/
def find (brackets : List Text) (digits : Text) : Except LookupFault Text :=
  if Numeral.lengthLimit brackets.length < digits.length then .error (.overlong digits.length)
  else entry brackets (Numeral.value digits)

/-- A run of text with its phrases restored, if it is not blank then. -/
def segment (phrases : Phrase.Tables) (s : Text) : Except LookupFault (List Draft) := do
  let s ← Phrase.restore phrases s
  return if s.notBlank then [.text s] else []

/-- The run of text before a group, and whether a dash at its end negates the group. -/
def splitDash (run : Text) : Text × Bool :=
  if run.getLast? = some '-' then (run.dropLast, true) else (run, false)

/-- The nodes of a level, given the runs of text before its placeholders and the rest. A full-width bracket
    that belongs to no placeholder hides the text before it. -/
def drafts (brackets : List Text) (phrases : Phrase.Tables) (rest : Text) :
    List (Text × Text) → Except LookupFault (List Draft)
  | [] => segment phrases rest
  | (run, digits) :: marks => do
    let (run, negated) := splitDash (run.afterLast isFullWidthBracket)
    let before ← segment phrases run
    let body ← find brackets digits
    let later ← drafts brackets phrases rest marks
    return before ++ .group negated body :: later

/-- The nodes of a level with its groups laid out, from the last one to the first. -/
def fill (layBody : Text → Except LookupFault (List ClosedNode)) :
    List Draft → Except LookupFault (List ClosedNode)
  | [] => .ok []
  | .text s :: ds => do
    let later ← fill layBody ds
    return .text s :: later
  | .group negated body :: ds => do
    let later ← fill layBody ds
    let nodes ← layBody body
    return .group negated nodes :: later

/-- The layers of collapsed text, at most `depth` levels of them. -/
def layout (brackets : List Text) (phrases : Phrase.Tables) :
    (depth : Nat) → Text → Except LookupFault (List ClosedNode)
  | 0, _ => .error .nesting
  | depth + 1, s => do
    let (marks, rest) := Piece.runs (placeholderPattern.pieces s)
    let level ← drafts brackets phrases rest marks
    fill (layout brackets phrases depth) level

/-- The collapsed text and the bracket table that the layers of a text are laid out from. -/
def collapsed (settings : Settings) (s : Text) : Text × List Text :=
  let (text, brackets) := Bracket.collapse [] s
  (if settings.dropUnmatchedBrackets then Bracket.dropUnmatched text else text, brackets)

/-- The layers of a text with placeholders for its phrases. Entries nest in one another at most as deep as
    there are entries, unless one stands inside itself. -/
def ofProtected (settings : Settings) (phrases : Phrase.Tables) (s : Text) :
    Except LookupFault (List ClosedNode) :=
  let (text, brackets) := collapsed settings s
  layout brackets phrases (brackets.length + 1) text

/-- The layers of a query: its phrases are extracted before its symbols are normalized and its brackets collapsed. -/
def ofQuery (settings : Settings) (query : Text) : Except LookupFault (List ClosedNode) :=
  let (text, phrases) := Phrase.extract query.normalizeQuotes
  ofProtected settings phrases text.normalizeSymbols

end SearchQuery.Layer
