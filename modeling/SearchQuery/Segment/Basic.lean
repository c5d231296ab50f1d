import SearchQuery.Condition.Simplify
import SearchQuery.Phrase.Extract
import SearchQuery.Phrase.Restore
import SearchQuery.Segment.Spelling

/-!
Segments: query text without brackets. A dash binds tightest, then AND or a mere blank, then OR. A word AND
is as good as a blank; the text between words OR gives the alternatives, and the words of each are all asked
for. An OR at an end of a segment connects it with what stands beside it, so a segment tells of it.
-/

namespace SearchQuery

/-- What a segment asks for, and whether an OR stands at its start and at its end. -/
structure Segment where
  startsWithOr : Bool
  condition : ClosedCondition
  endsWithOr : Bool

namespace Segment

/-- The text without its delimited words AND. -/
def dropAnd (s : Text) : Text :=
  Text.joinWith [' '] (Connective.and.split s)

/-- Nothing but an OR stands in the text. -/
def isOnlyOr (s : Text) : Bool :=
  Connective.or.spells s.trim

/-- The condition of one word. A word of one character is a term whatever it is; a word AND or OR that
    connects nothing is left out. -/
def wordCondition (phrases : Phrase.Tables) (word : Text) :
    Except LookupFault (Option ClosedCondition) := do
  match ← Phrase.condition? phrases word with
  | some c => return some c
  | none =>
    match word with
    | [c] => return some (.keyword [c])
    | _ =>
      if Connective.and.spells word || Connective.or.spells word then return none
      else
        match word with
        | '-' :: term => return some (.negation (.keyword term))
        | _ => return some (.keyword word)

/-- The conditions of the words that have one, in order. -/
def wordConditions (phrases : Phrase.Tables) : List Text → Except LookupFault (List ClosedCondition)
  | [] => .ok []
  | word :: words => do
    let c ← wordCondition phrases word
    let cs ← wordConditions phrases words
    return c.toList ++ cs

/-- The alternatives of a segment: one for each run of words between words OR. -/
def alternatives (phrases : Phrase.Tables) : List Text → Except LookupFault (List ClosedCondition)
  | [] => .ok []
  | chunk :: chunks => do
    if chunk.words.isEmpty then alternatives phrases chunks
    else
      let cs ← wordConditions phrases chunk.words
      let later ← alternatives phrases chunks
      return .compound .and cs :: later

/-- The segment of a text. Its phrases are extracted and its delimited words AND left out before an OR is looked
    for. -/
def ofText (s : Text) : Except LookupFault Segment := do
  let (text, phrases) := Phrase.extract s
  let text := dropAnd text
  let runs ← alternatives phrases (Connective.or.split (' ' :: text ++ [' ']))
  return {
    startsWithOr := isOnlyOr text || Connective.or.startsText text
    condition := Condition.simplify (.compound .or runs)
    endsWithOr := isOnlyOr text || Connective.or.endsText text }

end Segment
end SearchQuery
