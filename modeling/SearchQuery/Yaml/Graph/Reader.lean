import SearchQuery.Yaml.Token.Lexer
import SearchQuery.Yaml.Graph.Basic

/-!
The graph of a document by descent on its tokens. Where a collection may be missing an item, a key or a value,
an empty scalar stands for it. A collection is entered before the nodes in it, so that they can refer to it.
Every step through a collection takes a token, so the number of tokens bounds it; how deep collections nest
is limited.
-/

namespace SearchQuery.Yaml.Graph

/-- How deep collections may nest. -/
def depthLimit : Nat := 491

/-- The items of a collection, read until there is none. -/
def many {β : Type} (item : Reader (Option β)) : (bound : Nat) → Reader (List β)
  | 0 => reject .content
  | bound + 1 => do
    match ← item with
    | none => return []
    | some first => return first :: (← many item bound)

/-- A node, unless one of the given tokens says that it is missing. -/
def orMissing (tokens : List Token) (node : Reader Nat) : Reader Nat := do
  if ← at? tokens then missing else node

/-- An entry of a sequence in block style. -/
def blockItem (node : Reader Nat) : Reader (Option Nat) := do
  if ← take .blockEntry then return some (← orMissing [.blockEntry, .blockEnd] node)
  else if ← take .blockEnd then return none
  else reject .blockEnd

/-- An entry of a sequence that is indented no deeper than the mapping around it. -/
def indentlessItem (node : Reader Nat) : Reader (Option Nat) := do
  if ← take .blockEntry then return some (← orMissing [.blockEntry, .key, .value, .blockEnd] node)
  else return none

/-- A key and its value in block style. -/
def blockPair (node : Reader Nat) : Reader (Option (Nat × Nat)) := do
  if ← take .key then
    let key ← orMissing [.key, .value, .blockEnd] node
    let value ← if ← take .value then orMissing [.key, .value, .blockEnd] node else missing
    return some (key, value)
  else if ← take .blockEnd then return none
  else reject .blockEnd

/-- A key and its value after the mark of a key in flow style, before the given end. -/
def flowPair (node : Reader Nat) (ending : Token) : Reader (Nat × Nat) := do
  let key ← orMissing [.value, .flowEntry, ending] node
  let value ← if ← take .value then orMissing [.flowEntry, ending] node else missing
  return (key, value)

/-- What follows an item in flow style: a comma or the end, which stays. -/
def flowSeparator (ending : Token) : Reader Unit := do
  if ← take .flowEntry then return ()
  else if (← peek) = some ending then return ()
  else reject .flowEnd

/-- An item of a sequence in flow style, one pair making a mapping of its own. -/
def flowItem (node : Reader Nat) : Reader (Option Nat) := do
  if ← take .flowSequenceEnd then return none
  else
    let item ←
      if ← take .key then
        let pair ← flowPair node .flowSequenceEnd
        enter none ⟨.map, .mapping [pair]⟩
      else node
    flowSeparator .flowSequenceEnd
    return some item

/-- A key and its value in a mapping in flow style. -/
def flowEntry (node : Reader Nat) : Reader (Option (Nat × Nat)) := do
  if ← take .flowMappingEnd then return none
  else
    let pair ←
      if ← take .key then flowPair node .flowMappingEnd
      else
        let key ← node
        pure (key, ← missing)
    flowSeparator .flowMappingEnd
    return some pair

/-- A collection, entered before what it holds. -/
def collection (anchor : Option Text) (tag : Tag) (empty : Content) (content : Reader Content) : Reader Nat := do
  let number ← enter anchor ⟨tag, empty⟩
  let content ← content
  modify fun source => { source with nodes := source.nodes.setIfInBounds number ⟨tag, content⟩ }
  return number

/-- Where a node stands: in flow style, in block style, or as the key or value of a mapping in block style,
    where a sequence need not be indented. -/
inductive Place where
  | flow
  | block
  | entry
deriving DecidableEq

/-- A node, nodes in it nesting at most `depth` deep. Its collections have at most `bound` items. -/
def node (bound : Nat) : (depth : Nat) → Place → Reader Nat
  | 0, _ => throw (.error (.fault .nesting))
  | depth + 1, place => do
    match ← peek with
    | some (.alias name) =>
      advance
      resolveAlias name
    | _ =>
      let (anchor, tag) ← properties
      let token ← peek
      match anchor with
      | some name =>
        if (← get).anchors.any fun (known, _) => known = name then reject (.duplicateAnchor name)
      | none => pure ()
      let sequence (item : Reader (Option Nat)) : Reader Nat :=
        collection anchor (collectionTag tag .seq) (.sequence []) do return .sequence (← many item bound)
      let mapping (entry : Reader (Option (Nat × Nat))) : Reader Nat :=
        collection anchor (collectionTag tag .map) (.mapping []) do return .mapping (← many entry bound)
      match token with
      | some (.scalar text plain) =>
        advance
        enter anchor ⟨scalarTag tag plain text, .scalar text⟩
      | some .flowSequenceStart =>
        advance
        sequence (flowItem (node bound depth .flow))
      | some .flowMappingStart =>
        advance
        mapping (flowEntry (node bound depth .flow))
      | token =>
        if token = some .blockEntry && place = .entry then
          sequence (indentlessItem (node bound depth .block))
        else if token = some .blockSequenceStart && place ≠ .flow then
          advance
          sequence (blockItem (node bound depth .block))
        else if token = some .blockMappingStart && place ≠ .flow then
          advance
          mapping (blockPair (node bound depth .entry))
        else if anchor.isSome || tag.isSome then
          enter anchor ⟨scalarTag tag (isUntagged tag) [], .scalar []⟩
        else reject .content

/-- The directives before a document: whether a version is given, and the handles that are defined. -/
def directives : (bound : Nat) → (versionGiven : Bool) → (defined : List (Text × Text)) →
    Reader (List (Text × Text))
  | 0, _, _ => reject .directive
  | bound + 1, versionGiven, defined => do
    match ← peek with
    | some (.version major _) =>
      advance
      if versionGiven then reject .directive
      else if major ≠ 1 then reject .version
      else directives bound true defined
    | some (.tagHandle handle address) =>
      advance
      if defined.any fun (known, _) => known = handle then reject .directive
      else directives bound versionGiven ((handle, address) :: defined)
    | some .otherDirective =>
      advance
      directives bound versionGiven defined
    | _ => return defined

/-- Markers of the end of a document are passed over. -/
def documentEnds : (bound : Nat) → Reader Unit
  | 0 => return ()
  | bound + 1 => do
    if ← take .documentEnd then documentEnds bound

/-- The root of the one document of a stream, if it has one. -/
def document : Reader (Option Nat) := do
  let bound := (← get).tokens.length + 1
  match ← peek with
  | none => return none
  | some first =>
    let isExplicit : Bool :=
      match first with
      | .documentStart | .version .. | .tagHandle .. | .otherDirective => true
      | _ => false
    let root ←
      if isExplicit then do
        let defined ← directives bound false []
        modify fun source => { source with handles := defined ++ source.handles }
        if !(← take .documentStart) then reject .directive
        match ← peek with
        | none => missing
        | some (.version ..) | some (.tagHandle ..) => missing
        | some .otherDirective | some .documentStart | some .documentEnd => missing
        | some _ => node bound depthLimit .block
      else node bound depthLimit .block
    documentEnds bound
    if (← peek).isSome then
      let _ ← directives bound false []
      reject .secondDocument
    return some root

/-- The graph of a document and the number of its root, if it holds a node. -/
def ofInput? (input : Input) : Except Failure (Graph × Option Nat) :=
  let (tokens, ending) := Token.ofInput input
  match document ending.isSome { tokens } with
  | .ok (root, source) => .ok (source.nodes, root)
  | .error (.error e) => .error (.error e)
  | .error .brokenOff => .error (ending.getD (.error (.problem .unfinished)))

end SearchQuery.Yaml.Graph
