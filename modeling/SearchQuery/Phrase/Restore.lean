import SearchQuery.Text.Pattern
import SearchQuery.Phrase.Tables

/-!
Placeholders back to phrases: in a text they give way to the quoted phrase, with a space on either side; a
word that is one placeholder is the condition that asks for its phrase.
-/

namespace SearchQuery.Phrase

/-- A tag, a colon, a numeral and the closing mark, and what follows. -/
def reference? (tag : Text) : Text → Option ((Text × Text) × Text)
  | ':' :: s =>
    match Text.upTo? isDecimal closeMark s with
    | some (digits, rest) => if digits.isEmpty then none else some ((tag, digits), rest)
    | none => none
  | _ => none

theorem length_lt_of_reference? {tag s rest : Text} {found : Text × Text}
    (h : reference? tag s = some (found, rest)) : rest.length < s.length := by
  unfold reference? at h
  split at h
  · split at h
    · next hr =>
      split at h
      · cases h
      · simp only [Option.some.injEq, Prod.mk.injEq] at h
        have := Text.length_lt_of_upTo? hr
        rw [← h.2, List.length_cons]
        omega
    · cases h
  · cases h

/-- A placeholder: its tag and its numeral, in decimal digits of any script. -/
def placeholderPattern : Pattern (Text × Text) where
  read
    | '\ue000' :: 'N' :: 'P' :: 'K' :: s => reference? negativeTag s
    | '\ue000' :: 'P' :: 'K' :: s => reference? positiveTag s
    | _ => none
  shorter {s rest found} h := by
    split at h
    · have := length_lt_of_reference? h
      simp only [List.length_cons]
      omega
    · have := length_lt_of_reference? h
      simp only [List.length_cons]
      omega
    · cases h

/-- A phrase in query text: quoted, after a dash if it is negated, with a space on either side. -/
def inQuery (tag body : Text) : Text :=
  if tag = negativeTag then ' ' :: '-' :: '"' :: body ++ ['"', ' '] else ' ' :: '"' :: body ++ ['"', ' ']

/-- The pieces of a text put together, phrases in place of their placeholders. -/
def restorePieces (tables : Tables) : List (Piece (Text × Text)) → Except LookupFault Text
  | [] => .ok []
  | .plain c :: ps => do
    let later ← restorePieces tables ps
    return c :: later
  | .found (tag, digits) :: ps => do
    let body ← tables.find tag digits
    let later ← restorePieces tables ps
    return inQuery tag body ++ later

/-- The text with its phrases in place of their placeholders. -/
def restore (tables : Tables) (s : Text) : Except LookupFault Text :=
  restorePieces tables (placeholderPattern.pieces s)

/-- The condition of a word that is one placeholder. -/
def condition? (tables : Tables) (word : Text) : Except LookupFault (Option ClosedCondition) :=
  match placeholderPattern.read word with
  | some ((tag, digits), []) => do
    let body ← tables.find tag digits
    return some (if tag = negativeTag then .negation (.phrase body) else .phrase body)
  | _ => .ok none

end SearchQuery.Phrase
