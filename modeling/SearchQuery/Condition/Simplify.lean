import SearchQuery.Text.Blank
import SearchQuery.Condition.Basic

/-!
Canonical form. In a canonical condition no term or phrase is blank, no negation stands on a blank condition
or on a negation, and every compound has at least two parts, none of them blank and none joined by the same
connective. The constructors `ofTerm`, `ofPhrase`, `negate` and `join` build a canonical condition from
canonical parts; `simplify?` applies them from the leaves up.
-/

namespace SearchQuery.Condition

variable {α : Type}

/-- A term, or the blank condition if the term is blank. -/
def ofTerm (term : Text) : Condition α :=
  if term.notBlank then .keyword term else .blank

/-- A phrase, or the blank condition if its words are blank. -/
def ofPhrase (words : Text) : Condition α :=
  if words.notBlank then .phrase words else .blank

/-- The opposite of a condition: two negations cancel, and the blank condition stays blank. -/
def negate : Condition α → Condition α
  | .blank => .blank
  | .negation c => c
  | c => .negation c

/-- The parts that a condition brings to a compound joined by `op`: its own parts if it is joined the same
    way, else the condition itself. -/
def partsUnder (op : Connective) : Condition α → List (Condition α)
  | .compound op' parts => if op' = op then parts else [.compound op' parts]
  | c => [c]

/-- The conditions joined by `op`: blank ones are left out, one alone stands for itself, and of several
    those joined by `op` give way to their parts. -/
def join (op : Connective) (parts : List (Condition α)) : Condition α :=
  match parts.filter fun c => !c.isBlank with
  | [] => .blank
  | [c] => c
  | cs => .compound op (cs.flatMap (partsUnder op))

/-- Brings the top of a condition with canonical parts into canonical form. A foreign value at the top is
    refused, one further down is not looked at. -/
def simplifyTop? : Condition α → Except α (Condition α)
  | .blank => .ok .blank
  | .keyword term => .ok (ofTerm term)
  | .phrase words => .ok (ofPhrase words)
  | .negation c => .ok (negate c)
  | .compound op parts => .ok (join op parts)
  | .foreign value => .error value

mutual

/-- The canonical form of a condition, or the first foreign value in it. -/
def simplify? : Condition α → Except α (Condition α)
  | .blank => simplifyTop? .blank
  | .keyword term => simplifyTop? (.keyword term)
  | .phrase words => simplifyTop? (.phrase words)
  | .negation c => do
    let c ← simplify? c
    simplifyTop? (.negation c)
  | .compound op parts => do
    let parts ← simplifyAll? parts
    simplifyTop? (.compound op parts)
  | .foreign value => simplifyTop? (.foreign value)

/-- The canonical forms of several conditions, from the left. -/
def simplifyAll? : List (Condition α) → Except α (List (Condition α))
  | [] => .ok []
  | c :: cs => do
    let c ← simplify? c
    let cs ← simplifyAll? cs
    return c :: cs

end

/-- The canonical form of a closed condition. -/
def simplify (c : ClosedCondition) : ClosedCondition :=
  certain (simplify? c)

/-- The canonical form of the top of a closed condition with canonical parts. -/
def simplifyTop (c : ClosedCondition) : ClosedCondition :=
  certain (simplifyTop? c)

end SearchQuery.Condition
