import SearchQuery.Condition.Basic

/-!
The canonical query text of a condition: connectives in capitals, phrases in quotes, a dash before what is
negated, and brackets around a compound only where it is negated or stands in a compound joined the other
way.
-/

namespace SearchQuery

/-- The word that stands for a connective in canonical query text. -/
def Connective.word : Connective → Text
  | .and => ['A', 'N', 'D']
  | .or => ['O', 'R']

namespace Condition

variable {α : Type}

/-- The condition is a compound. -/
def isCompound : Condition α → Bool
  | .compound .. => true
  | _ => false

/-- The condition is a compound not joined by `op`. -/
def isOtherCompound (op : Connective) : Condition α → Bool
  | .compound op' _ => op' ≠ op
  | _ => false

/-- The text in brackets, if it needs them. -/
def bracketIf (needed : Bool) (s : Text) : Text :=
  if needed then '(' :: s ++ [')'] else s

mutual

/-- The canonical query text of a condition, or the first foreign value in it. -/
def queryText? : Condition α → Except α Text
  | .blank => .ok []
  | .keyword term => .ok term
  | .phrase words => .ok ('"' :: words ++ ['"'])
  | .negation c => do
    let inner ← queryText? c
    return '-' :: bracketIf c.isCompound inner
  | .compound op parts => do
    let inner ← partTexts? op parts
    return Text.joinWith (' ' :: op.word ++ [' ']) inner
  | .foreign value => .error value

/-- The canonical texts of the parts of a compound joined by `op`, with the brackets they need there. -/
def partTexts? (op : Connective) : List (Condition α) → Except α (List Text)
  | [] => .ok []
  | c :: cs => do
    let inner ← queryText? c
    let later ← partTexts? op cs
    return bracketIf (c.isOtherCompound op) inner :: later

end

/-- The canonical query text of a closed condition. -/
def queryText (c : ClosedCondition) : Text :=
  certain (queryText? c)

end Condition
end SearchQuery
