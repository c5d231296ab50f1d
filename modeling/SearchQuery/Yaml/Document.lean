import SearchQuery.Settings.Reader
import SearchQuery.Value.Key
import SearchQuery.Value.Members
import SearchQuery.Yaml.ScalarValue
import SearchQuery.Yaml.Graph.Reader
import SearchQuery.Yaml.Graph.Merge

/-!
The value of a YAML document. Scalars are read as they are met, collections are filled one after another in
the order in which they were met, so the first error in that order counts. A mapping has each key once: the
first place of a key counts for the order, the last value for the value. A collection that stands inside
itself is one value that contains itself. The program reads its settings file with the reader at the end. What is
proved of settings is proved for every reader, so nothing rests on this one.
-/

namespace SearchQuery.Yaml

/-- The value of a node. -/
inductive Datum where
  | scalar (value : Value)
  /-- An undefined number: the one that is written with a point, or one of its own for a node. -/
  | undefined (node : Option Nat)
  /-- The collection of a node. -/
  | collection (node : Nat)
deriving Inhabited

/-- What a collection holds. -/
inductive Collection where
  | list (items : List Datum)
  | pairs (items : List (Datum × Datum))
  | set (members : List Datum)
  | mapping (entries : List (Datum × Datum))
deriving Inhabited

namespace Datum

/-- Two values are the same key. An undefined number is the same as itself alone. -/
def sameKey : Datum → Datum → Bool
  | .scalar a, .scalar b => a.sameKey b
  | .undefined a, .undefined b => a == b
  | _, _ => false

/-- The value can be the key of a mapping. -/
def canBeKey : Datum → Bool
  | .collection _ => false
  | _ => true

/-- Enters a value under a key, in the place of the key if it is there already. -/
def insert (key value : Datum) : List (Datum × Datum) → List (Datum × Datum)
  | [] => [(key, value)]
  | (known, old) :: entries =>
    if known.sameKey key then (known, value) :: entries else (known, old) :: insert key value entries

end Datum

/-! ### Values of nodes -/

/-- What is known while values are found: the graph, the values of the nodes met so far, what the collections
    hold, and the collections met but not filled, the last of them first. -/
structure Building where
  graph : Graph
  data : Array (Option Datum)
  collections : Array Collection
  waiting : List Nat := []

/-- Finding values. -/
abbrev Builder := StateT Building (Except Error)

namespace Builder

/-- A document that breaks a rule has no value. -/
def reject {β : Type} (p : Problem) : Builder β :=
  throw (.problem p)

/-- The content of a node. -/
def content (node : Nat) : Builder Content :=
  return (← get).graph.contentOf node

/-- The text of a scalar. A mapping with an equals sign for a key stands for what is under that key; a graph
    of `bound` nodes leads there in fewer steps, or never. -/
def textFrom (g : Graph) : (bound : Nat) → (node : Nat) → Except Error CodePoints
  | 0, _ => .error (.fault .nesting)
  | bound + 1, node =>
    match g.contentOf node with
    | .scalar text => .ok text
    | .sequence _ => .error (.problem .mismatchedTag)
    | .mapping entries =>
      match entries.find? fun (key, _) => g.tagOf key = .value with
      | some (_, value) => textFrom g bound value
      | none => .error (.problem .mismatchedTag)

/-- The text that a scalar or a mapping stands for. -/
def text (node : Nat) : Builder CodePoints := do
  let g := (← get).graph
  textFrom g (g.size + 1) node

/-- The date of a node. It must be written in the node itself. -/
def date (node : Nat) : Builder Value := do
  let text ← text node
  match ← content node with
  | .scalar _ => readTimestamp text
  | _ => throw (.fault .dateElsewhere)

/-- The value of a node that has not been met before. -/
def make (node : Nat) : Builder Datum := do
  match (← get).graph.tagOf node with
  | .null =>
    let _ ← text node
    return .scalar .null
  | .bool => return .scalar (.bool (← readBool (← text node)))
  | .int => return .scalar (.int (← readInt (← text node)))
  | .float =>
    match ← readFloat (← text node) with
    | none => return .undefined none
    | some x => return if x.isNaN then .undefined (some node) else .scalar (.float x)
  | .binary => return .scalar (.bytes (← readBinary (← text node)))
  | .timestamp => return .scalar (← date node)
  | .str => return .scalar (.string (← text node))
  | .seq | .pairs | .set | .map =>
    modify fun state => { state with waiting := node :: state.waiting }
    return .collection node
  | .merge | .value | .other _ => reject .unknownTag

/-- The value of a node, found where it is met first. -/
def datum (node : Nat) : Builder Datum := do
  match (← get).data[node]? with
  | some (some known) => return known
  | _ =>
    let made ← make node
    modify fun state => { state with data := state.data.setIfInBounds node (some made) }
    return made

/-- The entries of a mapping, given their nodes. -/
def entriesFrom (known : List (Datum × Datum)) : List (Nat × Nat) → Builder (List (Datum × Datum))
  | [] => return known
  | (key, value) :: entries => do
    let key ← datum key
    if !key.canBeKey then reject .unhashableKey
    let value ← datum value
    entriesFrom (key.insert value known) entries

/-- The entries of a mapping, without merge keys. -/
def entries (node : Nat) : Builder (List (Datum × Datum)) := do
  match ← content node with
  | .mapping _ =>
    let graph ← (← get).graph.flatten node
    modify fun state => { state with graph }
    entriesFrom [] ((graph.entriesOf? node).getD [])
  | _ => reject .mismatchedTag

/-- The key and the value of a mapping with one entry. -/
def pair (node : Nat) : Builder (Datum × Datum) := do
  match ← content node with
  | .mapping [(key, value)] =>
    let key ← datum key
    return (key, ← datum value)
  | _ => reject .mismatchedTag

/-- What the collection of a node holds. -/
def fill (node : Nat) : Builder Unit := do
  let collection ← match (← get).graph.tagOf node, ← content node with
    | .seq, .sequence items => pure (Collection.list (← items.mapM datum))
    | .pairs, .sequence items => pure (Collection.pairs (← items.mapM pair))
    | .set, _ => pure (Collection.set ((← entries node).map (·.1)))
    | .map, _ => pure (Collection.mapping (← entries node))
    | _, _ => reject .mismatchedTag
  modify fun state => { state with collections := state.collections.setIfInBounds node collection }

/-- Fills the collections that wait, and those that are met then, at most `bound` times over. -/
def fillWaiting : (bound : Nat) → Builder Unit
  | 0 => return ()
  | bound + 1 => do
    match (← get).waiting.reverse with
    | [] => return ()
    | nodes =>
      modify fun state => { state with waiting := [] }
      nodes.forM fill
      fillWaiting bound

end Builder

/-! ### Documents -/

/-- A document: the value of its root, and what its collections hold. -/
structure Document where
  root : Datum
  collections : Array Collection

namespace Document

/-- The document of a graph. Each of its collections is filled once. -/
def ofGraph (graph : Graph) (root : Nat) : Except Error Document := do
  let size := graph.size
  let start : Building :=
    { graph, data := Array.replicate size none, collections := Array.replicate size (.list []) }
  let build : Builder Datum := do
    let root ← Builder.datum root
    Builder.fillWaiting (size + 1)
    return root
  let (root, state) ← build.run start
  return ⟨root, state.collections⟩

/-- The document that is read; where there is no node, it has no value. -/
def ofInput? (input : Input) : Except Failure Document := do
  let (graph, root) ← Graph.ofInput? input
  match root with
  | some root => (ofGraph graph root).mapError .error
  | none => return ⟨.scalar .null, #[]⟩

/-- The entries of a value that is a mapping. -/
def entries? (d : Document) : Datum → Option (List (Datum × Datum))
  | .collection node =>
    match d.collections[node]? with
    | some (.mapping entries) => some entries
    | _ => none
  | _ => none

/-- The value is a mapping. -/
def isMapping (d : Document) (datum : Datum) : Bool :=
  (d.entries? datum).isSome

/-- The value under a name in a value that is a mapping. -/
def field? (d : Document) (datum : Datum) (name : Text) : Option Datum := do
  let entries ← d.entries? datum
  let (_, value) ← entries.find? fun (key, _) => key.sameKey (.scalar (.string name.codePoints))
  return value

/-- A value written out, its collections nested at most `bound` deep. A collection inside itself is only
    named. -/
def valueWithin (d : Document) : (bound : Nat) → (around : List Nat) → Datum → Value
  | _, _, .scalar value => value
  | _, _, .undefined _ => .float (0.0 / 0.0)
  | 0, _, .collection node => .itself (d.isMapping (.collection node))
  | bound + 1, around, .collection node =>
    if around.contains node then .itself (d.isMapping (.collection node))
    else
      let value := d.valueWithin bound (node :: around)
      match d.collections.getD node (.list []) with
      | .list items => .list (items.map value)
      | .pairs items => .list (items.map fun (first, second) => .pair (value first) (value second))
      | .set members => .set (Members.arrange (members.map value))
      | .mapping entries => .mapping (entries.map fun (key, entry) => (value key, value entry))

/-- A value written out. -/
def value (d : Document) (datum : Datum) : Value :=
  d.valueWithin (d.collections.size + 1) [] datum

end Document

/-! ### The reader -/

/-- A value that has been read, and the document that it belongs to. -/
structure ReadValue where
  document : Document
  datum : Datum

namespace ReadValue

/-- The form of a value. -/
def form (v : ReadValue) : Form ReadValue :=
  match v.datum with
  | .scalar .null => .null
  | .scalar (.bool b) => .bool b
  | datum =>
    if v.document.isMapping datum then
      .mapping fun name => (v.document.field? datum name).map fun datum => ⟨v.document, datum⟩
    else .other

/-- Collections that nest deeper are not shown. -/
def displayLimit : Nat := 990

/-- How a value is shown, unless it has too long a number or nests too deep. -/
def display (v : ReadValue) : Except Fault Text :=
  let value := v.document.value v.datum
  if displayLimit < value.depth then .error .deepDisplay
  else if value.isOverlong then .error .overlongDisplay
  else .ok value.display

end ReadValue

/-- The reader of YAML documents. -/
def reader : DocumentReader ReadValue Fault where
  read contents :=
    match Document.ofInput? (.ofFile contents) with
    | .ok document => .ok ⟨document, document.root⟩
    | .error (.error (.problem problem)) => .error (.invalid problem.message)
    | .error (.error (.fault fault)) => .error (.other fault)
    | .error (.encoding fault) => .error (.encoding fault)
  form := ReadValue.form
  display := ReadValue.display

end SearchQuery.Yaml
