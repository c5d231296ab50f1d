import SearchQuery.Yaml.Graph.Basic

/-!
Merge keys. An entry of a mapping with such a key gives way to the entries of the mapping that is its value,
or of several mappings in a sequence, the last of them first; what is merged comes before the entries that the
mapping has of its own. Each step takes a merge key from the graph, so their number bounds the steps even where
mappings are merged into themselves.
-/

namespace SearchQuery.Yaml.Graph

/-- The tag of the node of a number. -/
def tagOf (g : Graph) (number : Nat) : Tag :=
  match g[number]? with
  | some node => node.tag
  | none => .null

/-- The content of the node of a number. -/
def contentOf (g : Graph) (number : Nat) : Content :=
  match g[number]? with
  | some node => node.content
  | none => .scalar []

/-- The entries of a mapping, or none if the node is something else. -/
def entriesOf? (g : Graph) (number : Nat) : Option (List (Nat × Nat)) :=
  match g.contentOf number with
  | .mapping entries => some entries
  | _ => none

/-- The graph with other entries in a mapping. -/
def setEntries (g : Graph) (number : Nat) (entries : List (Nat × Nat)) : Graph :=
  g.modify number fun node => { node with content := .mapping entries }

/-- The key is a merge key. -/
def isMergeKey (g : Graph) (key : Nat) : Bool :=
  g.tagOf key = .merge

/-- The number of merge keys of a graph. -/
def mergeCount (g : Graph) : Nat :=
  g.foldl (fun n node =>
    match node.content with
    | .mapping entries => n + entries.countP fun (key, _) => g.isMergeKey key
    | _ => n) 0

/-- A key that is only an equals sign is a string. -/
def plainKeys (g : Graph) (entries : List (Nat × Nat)) : Graph :=
  entries.foldl (fun g (key, _) =>
    if g.tagOf key = .value then g.modify key fun node => { node with tag := .str } else g) g

/-- The mappings that a merge key stands for, the last of them first. -/
def mergeSources (g : Graph) (value : Nat) : Except Error (List Nat) :=
  match g.contentOf value with
  | .mapping _ => .ok [value]
  | .sequence items => .ok items
  | .scalar _ => .error (.problem .merge)

/-- Merges the entries of several mappings into one list, those of the last mapping first. `flatten` brings
    each of them into its final form. -/
def mergeAll (flatten : Graph → Nat → Except Error Graph) (g : Graph) :
    List Nat → Except Error (Graph × List (Nat × Nat))
  | [] => .ok (g, [])
  | source :: sources => do
    if (g.entriesOf? source).isNone then .error (.problem .merge)
    let g ← flatten g source
    let entries := (g.entriesOf? source).getD []
    let (g, later) ← mergeAll flatten g sources
    return (g, later ++ entries)

/-- The graph with entries merged into a mapping before its own. -/
def prepend (g : Graph) (number : Nat) (entries : List (Nat × Nat)) : Graph :=
  let own := (g.entriesOf? number).getD []
  let g := g.plainKeys own
  if entries.isEmpty then g else g.setEntries number (entries ++ own)

/-- Takes the merge keys of a mapping from it, in order, and gives the entries that they stand for. The graph
    has at most `bound` merge keys. -/
def merged : (bound : Nat) → Graph → (number : Nat) → Except Error (Graph × List (Nat × Nat))
  | 0, g, _ => .ok (g, [])
  | bound + 1, g, number =>
    let entries := (g.entriesOf? number).getD []
    match entries.find? fun (key, _) => g.isMergeKey key with
    | none => .ok (g, [])
    | some entry => do
      let flatten (g : Graph) (source : Nat) : Except Error Graph := do
        let (g, entries) ← merged bound g source
        return g.prepend source entries
      let g := g.setEntries number (entries.erase entry)
      let (g, first) ← mergeAll flatten g (← g.mergeSources entry.2)
      let (g, later) ← merged bound g number
      return (g, first ++ later)

/-- Brings a mapping into its final form, without merge keys. -/
def flatten (g : Graph) (number : Nat) : Except Error Graph := do
  let hasMergeKey := ((g.entriesOf? number).getD []).any fun (key, _) => g.isMergeKey key
  let (g, entries) ← merged (if hasMergeKey then g.mergeCount else 0) g number
  return g.prepend number entries

end SearchQuery.Yaml.Graph
