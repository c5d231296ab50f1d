import SearchQuery.Text.Basic

/-!
The layers of a query: runs of plain text and bracketed groups, each group holding layers of its own. The
type has a parameter for values of another kind that may stand where a node is expected.
-/

namespace SearchQuery

/-- A node of the layers of a query. -/
inductive Node (α : Type) where
  | text (s : Text)
  | group (negated : Bool) (nodes : List (Node α))
  | foreign (value : α)
deriving Repr, Inhabited

/-- A node with no foreign value in it. -/
abbrev ClosedNode := Node Empty

end SearchQuery
