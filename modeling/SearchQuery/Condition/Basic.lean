import SearchQuery.Text.Basic

/-!
Conditions: what a query asks of a document. A condition is blank, a term, an exact phrase, the negation of a
condition, or several conditions joined by AND or OR. The type has a parameter for values of another kind
that may stand where a condition is expected; a closed condition has none of them.
-/

namespace SearchQuery

/-- How the parts of a compound condition are joined. -/
inductive Connective where
  | and
  | or
deriving DecidableEq, Repr

/-- A condition in which values of `α` may stand for conditions. -/
inductive Condition (α : Type) where
  | blank
  | keyword (term : Text)
  | phrase (words : Text)
  | negation (operand : Condition α)
  | compound (op : Connective) (parts : List (Condition α))
  | foreign (value : α)
deriving Repr, Inhabited

/-- A condition in which no foreign value can stand. -/
abbrev ClosedCondition := Condition Empty

/-- The result of a computation that has nothing to fail with. -/
def certain {β : Type} : Except Empty β → β
  | .ok b => b

namespace Condition

variable {α : Type}

/-- The condition asks for nothing. -/
def isBlank : Condition α → Bool
  | .blank => true
  | _ => false

/-! ### Equality -/

section
variable [DecidableEq α]

mutual

/-- Two conditions are built alike. -/
def same : Condition α → Condition α → Bool
  | .blank, .blank => true
  | .keyword s, .keyword t => s == t
  | .phrase s, .phrase t => s == t
  | .negation c, .negation d => same c d
  | .compound op cs, .compound op' ds => op == op' && sameAll cs ds
  | .foreign a, .foreign b => a == b
  | _, _ => false

/-- Two lists of conditions are built alike. -/
def sameAll : List (Condition α) → List (Condition α) → Bool
  | [], [] => true
  | c :: cs, d :: ds => same c d && sameAll cs ds
  | _, _ => false

end

mutual

theorem same_iff : ∀ c d : Condition α, same c d = true ↔ c = d
  | .blank, d => by cases d <;> simp [same]
  | .keyword s, d => by cases d <;> simp [same]
  | .phrase s, d => by cases d <;> simp [same]
  | .negation c, d => by
    cases d with
    | negation d => simp [same, same_iff c d]
    | _ => simp [same]
  | .compound op cs, d => by
    cases d with
    | compound op' ds => simp [same, sameAll_iff cs ds]
    | _ => simp [same]
  | .foreign a, d => by cases d <;> simp [same]

theorem sameAll_iff : ∀ cs ds : List (Condition α), sameAll cs ds = true ↔ cs = ds
  | [], ds => by cases ds <;> simp [sameAll]
  | c :: cs, ds => by
    cases ds with
    | nil => simp [sameAll]
    | cons d ds => simp [sameAll, same_iff c d, sameAll_iff cs ds]

end

/-- Whether two conditions are the same is decided part by part. -/
instance : DecidableEq (Condition α) := fun c d =>
  decidable_of_iff _ (same_iff c d)

end

end Condition
end SearchQuery
