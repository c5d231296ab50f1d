import SearchQuery.Layer.Layout
import SearchQuery.Skeleton.Combine

/-!
Reading a query: its quotes are normalized, its phrases extracted and its brackets laid out in layers, and
the layers are given a condition.
-/

namespace SearchQuery.Query

/-- The condition of a query. -/
def parse (settings : Settings) (query : Text) : Except (Fault Empty) ClosedCondition := do
  let nodes ← (Layer.ofQuery settings query).mapError .lookup
  Skeleton.toCondition nodes

end SearchQuery.Query
