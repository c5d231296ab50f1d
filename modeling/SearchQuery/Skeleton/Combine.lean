import SearchQuery.Layer.Basic
import SearchQuery.Segment.Basic
import SearchQuery.Skeleton.Substitute

/-!
The condition of a tree of layers. The nodes of a level are joined by writing a skeleton text, in which the
index of each node stands with the connectives at its ends, and reading that text as a segment: between nodes
AND binds tighter than OR just as between words. Groups are joined from the inside out, on one level from
the right.
-/

namespace SearchQuery.Skeleton

variable {α : Type}

/-- A node of a level that is ready to be joined: its groups have been given conditions. -/
inductive Part (α : Type) where
  | text (s : Text)
  | condition (c : ClosedCondition)
  | foreign (value : α)

/-- The connective at an end of a segment, as skeleton text has it. -/
def connective (isOr : Bool) : Text :=
  if isOr then ['o', 'r'] else ['a', 'n', 'd']

/-- The skeleton text of a level and the conditions behind its indexes, the first of which is `size`. -/
def ofParts (size : Nat) : List (Part α) → Except (Fault α) (Text × List ClosedCondition)
  | [] => .ok ([], [])
  | .text s :: parts => do
    let segment ← (Segment.ofText s).mapError .lookup
    let (later, conditions) ← ofParts (size + 1) parts
    return (
      ' ' :: connective segment.startsWithOr ++ ' ' :: Numeral.ofNat size ++
        ' ' :: connective segment.endsWithOr ++ ' ' :: later,
      segment.condition :: conditions)
  | .condition c :: parts => do
    let (later, conditions) ← ofParts (size + 1) parts
    return (' ' :: Numeral.ofNat size ++ ' ' :: later, c :: conditions)
  | .foreign value :: _ => .error (.node value)

/-- The condition of a level: its skeleton text is read as a segment, and the conditions are put in place of the
    indexes. -/
def combine (parts : List (Part α)) : Except (Fault α) ClosedCondition := do
  let (text, conditions) ← ofParts 0 parts
  let skeleton ← (Segment.ofText text).mapError .lookup
  (substitute conditions skeleton.condition).mapError .slot

/-- A node whose groups are ready, but for the node itself. -/
inductive Draft (α : Type) where
  | text (s : Text)
  | group (negated : Bool) (parts : List (Part α))
  | foreign (value : α)

/-- Joins the nodes of the groups of a level, from the last one to the first. -/
def close : List (Draft α) → Except (Fault α) (List (Part α))
  | [] => .ok []
  | .text s :: drafts => do
    let later ← close drafts
    return .text s :: later
  | .group negated parts :: drafts => do
    let later ← close drafts
    let c ← combine parts
    return .condition (if negated then c.negate else c) :: later
  | .foreign value :: drafts => do
    let later ← close drafts
    return .foreign value :: later

mutual

/-- A node whose groups, but not itself, have been given conditions. -/
def draft : Node α → Except (Fault α) (Draft α)
  | .text s => .ok (.text s)
  | .group negated nodes => do
    let drafts ← draftAll nodes
    let parts ← close drafts
    return .group negated parts
  | .foreign value => .ok (.foreign value)

/-- The nodes of a level, from the left. -/
def draftAll : List (Node α) → Except (Fault α) (List (Draft α))
  | [] => .ok []
  | node :: nodes => do
    let first ← draft node
    let later ← draftAll nodes
    return first :: later

end

/-- The condition of a tree of layers. -/
def toCondition (nodes : List (Node α)) : Except (Fault α) ClosedCondition := do
  let drafts ← draftAll nodes
  let parts ← close drafts
  combine parts

end SearchQuery.Skeleton
