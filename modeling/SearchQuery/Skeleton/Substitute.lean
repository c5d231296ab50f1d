import SearchQuery.Fault
import SearchQuery.Condition.Simplify

/-!
A skeleton is a condition whose terms are indexes into a list of conditions. The conditions are put in place
of the terms, and every compound around them is brought into canonical form at its top alone: the conditions
are canonical already.
-/

namespace SearchQuery.Skeleton

variable {α : Type}

/-- The condition behind a term of a skeleton. The term must consist of digits; too many of them or a digit
    without a place value make it unreadable. -/
def resolve (conditions : List (Condition α)) (key : Text) : Except (SlotFault α) (Condition α) :=
  let run := (key.takeWhile isDecimal).length
  if key.isEmpty || !key.all isDigitLike then .error (.unresolved key conditions.length)
  else if Numeral.lengthLimit conditions.length < run then .error (.overlong run)
  else
    match Numeral.read? key with
    | none => .error (.numeral key)
    | some index =>
      match conditions[index]? with
      | some c => .ok c
      | none => .error (.unresolved key conditions.length)

mutual

/-- The skeleton with the conditions in place of its terms. -/
def substitute (conditions : List (Condition α)) : Condition α → Except (SlotFault α) (Condition α)
  | .blank => .ok .blank
  | .keyword key => resolve conditions key
  | .compound op parts => do
    let parts ← substituteAll conditions parts
    return Condition.join op parts
  | .phrase words => .error (.unexpected (.phrase words))
  | .negation c => .error (.unexpected (.negation c))
  | .foreign value => .error (.unexpected (.foreign value))

/-- Several skeletons with the conditions in place of their terms, from the left. -/
def substituteAll (conditions : List (Condition α)) :
    List (Condition α) → Except (SlotFault α) (List (Condition α))
  | [] => .ok []
  | c :: cs => do
    let c ← substitute conditions c
    let cs ← substituteAll conditions cs
    return c :: cs

end

end SearchQuery.Skeleton
