/-!
How queries are read.
-/

namespace SearchQuery

/-- The settings of the reader: whether brackets without a partner are dropped or read as text. -/
structure Settings where
  dropUnmatchedBrackets : Bool := false
deriving Repr, DecidableEq

end SearchQuery
