import SearchQuery.Text.Quoted
import SearchQuery.Condition.Basic

/-!
The outline of a condition: one line for each node, indented under the node that it belongs to by guides that
show where the node's parts end. Text in a line is quoted, so it has no line break and no character that
cannot be printed.
-/

namespace SearchQuery.Condition

/-- The line of a node, without its guides. -/
def label : ClosedCondition → Text
  | .blank => ['N', 'o', 'n', 'e']
  | .keyword term => ['K', 'e', 'y', 'w', 'o', 'r', 'd', ' '] ++ term.quoted
  | .phrase words =>
    ['P', 'h', 'r', 'a', 's', 'e', 'K', 'e', 'y', 'w', 'o', 'r', 'd', ' '] ++ words.quoted
  | .negation _ => ['N', 'o', 't']
  | .compound .and _ => ['A', 'N', 'D']
  | .compound .or _ => ['O', 'R']

/-- The lines of a part under the guides that it needs: those of the last part end there. -/
def underGuides (isLast : Bool) : List Text → List Text
  | [] => []
  | first :: lines =>
    let (here, below) : Text × Text :=
      if isLast then (['└', '─', '─', ' '], [' ', ' ', ' ', ' '])
      else (['├', '─', '─', ' '], ['│', ' ', ' ', ' '])
    (here ++ first) :: lines.map (below ++ ·)

mutual

/-- The lines of a condition, those of its parts under its own. -/
def outline : ClosedCondition → List Text
  | .negation c => label (.negation c) :: underGuides true (outline c)
  | .compound op parts => label (.compound op parts) :: outlineParts parts
  | .blank => [label .blank]
  | .keyword term => [label (.keyword term)]
  | .phrase words => [label (.phrase words)]

/-- The lines of the parts of a compound. -/
def outlineParts : List ClosedCondition → List Text
  | [] => []
  | c :: cs => underGuides cs.isEmpty (outline c) ++ outlineParts cs

end

/-- The outline of a condition, each line ended. -/
def outlineText (c : ClosedCondition) : Text :=
  (outline c).flatMap (· ++ ['\n'])

end SearchQuery.Condition
