import SearchQuery.Query

/-!
The notices of reading a query, in the order in which its steps are taken: what was extracted and collapsed,
and the skeleton of every level, groups before the levels around them.
-/

namespace SearchQuery

/-- A notice of one step. -/
inductive Notice where
  | extracted (phrases : Phrase.Tables)
  | collapsed (pairs : Nat) (text : Text)
  | skeleton (text : Text) (conditions : Nat)

namespace Notice

/-- The line that is written for a notice. -/
def line : Notice → Text
  | .extracted phrases =>
    "DEBUG querytree.phrases: Extracted ".toList ++ Numeral.ofNat phrases.positive.length ++
      " phrase(s) and ".toList ++ Numeral.ofNat phrases.negative.length ++ " negated phrase(s)".toList
  | .collapsed pairs text =>
    "DEBUG querytree.layering: Collapsed ".toList ++ Numeral.ofNat pairs ++
      " bracket pair(s): ".toList ++ text.quoted
  | .skeleton text conditions =>
    "DEBUG querytree.parser: Skeleton ".toList ++ text.quoted ++ " for ".toList ++
      Numeral.ofNat conditions ++ " condition(s)".toList

/-- The notice of an extraction, if it found anything. -/
def ofExtraction (phrases : Phrase.Tables) : List Notice :=
  if phrases.isEmpty then [] else [.extracted phrases]

/-- The notices of reading a level whose groups have been given conditions. -/
def ofLevel (nodes : List ClosedNode) : List Notice :=
  let parts : List (Skeleton.Part Empty) := nodes.map fun
    | .text s => .text s
    | .group .. => .condition .blank
  let segments := nodes.flatMap fun
    | .text s => ofExtraction (Phrase.extract s).2
    | .group .. => []
  match Skeleton.ofParts 0 parts with
  | .ok (text, conditions) => segments ++ [.skeleton text conditions.length]
  | .error _ => segments

/-- The notices of giving conditions to the groups of a level, from the last group to the first. -/
def ofGroups : List ClosedNode → List Notice
  | [] => []
  | .text _ :: nodes => ofGroups nodes
  | .group _ inner :: nodes => ofGroups nodes ++ ofLevel inner

mutual

/-- The notices of the groups inside a node, but not of the node itself. -/
def inside : ClosedNode → List Notice
  | .text _ => []
  | .group _ nodes => insideAll nodes ++ ofGroups nodes

/-- The notices of the groups inside the nodes of a level, from the left. -/
def insideAll : List ClosedNode → List Notice
  | [] => []
  | node :: nodes => inside node ++ insideAll nodes

end

/-- The notices of reading a query. -/
def ofQuery (settings : Settings) (query : Text) : List Notice :=
  let (text, phrases) := Phrase.extract query.normalizeQuotes
  let (flat, brackets) := Layer.collapsed settings text.normalizeSymbols
  let levels :=
    match Layer.ofQuery settings query with
    | .ok nodes => insideAll nodes ++ ofGroups nodes ++ ofLevel nodes
    | .error _ => []
  ofExtraction phrases ++ .collapsed brackets.length flat :: levels

end Notice
end SearchQuery
