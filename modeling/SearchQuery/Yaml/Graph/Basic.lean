import SearchQuery.Yaml.Token.Basic
import SearchQuery.Yaml.Tag

/-!
The graph of a YAML document. Its nodes are numbered; a collection names the nodes in it by their numbers, and
an alias is one more name of a node, so a node may stand in several places, itself included. Here are the
graph and what reading it keeps track of: the tokens, the nodes so far, the anchors and the handles of tags.
-/

namespace SearchQuery.Yaml

/-- The content of a node. -/
inductive Content where
  | scalar (text : CodePoints)
  | sequence (items : List Nat)
  | mapping (entries : List (Nat × Nat))
deriving Repr, DecidableEq

/-- A node of a document. -/
structure Node where
  tag : Tag
  content : Content
deriving Repr, DecidableEq

/-- The nodes of a document, each in the place of its number. -/
abbrev Graph := Array Node

namespace Graph

/-- What is still to be read; the nodes so far, those that have an anchor, and the addresses of the handles of
    tags. -/
structure Source where
  tokens : List Token
  nodes : Graph := #[]
  anchors : List (Text × Nat) := []
  handles : List (Text × Text) := [(['!'], ['!']), (['!', '!'], Tag.own)]

/-- Why a part of a document is not read: it has an error, or its tokens break off. -/
inductive Halt where
  | error (e : Error)
  | brokenOff

/-- Reading a part of a document, given whether the tokens break off before the document ends. -/
abbrev Reader := ReaderT Bool (StateT Source (Except Halt))

/-- The next token stays. -/
def peek : Reader (Option Token) := do
  match (← get).tokens with
  | token :: _ => return some token
  | [] => if ← read then throw .brokenOff else return none

/-- The next token is taken. -/
def advance : Reader Unit :=
  modify fun source => { source with tokens := source.tokens.drop 1 }

/-- Takes the next token if it is the given one. -/
def take (token : Token) : Reader Bool := do
  if (← peek) = some token then
    advance
    return true
  else return false

/-- The next token is one of those given. -/
def at? (tokens : List Token) : Reader Bool := do
  match ← peek with
  | some token => return tokens.contains token
  | none => return false

/-- A document that breaks a rule has no graph. -/
def reject {β : Type} (p : Problem) : Reader β :=
  throw (.error (.problem p))

/-- Enters a node, which has an anchor or not, and gives its number. -/
def enter (anchor : Option Text) (node : Node) : Reader Nat := do
  let source ← get
  let number := source.nodes.size
  let anchors := match anchor with
    | some name => (name, number) :: source.anchors
    | none => source.anchors
  set { source with nodes := source.nodes.push node, anchors }
  return number

/-- An empty scalar stands for what is missing. -/
def missing : Reader Nat :=
  enter none ⟨.null, .scalar []⟩

/-- The node that an alias names. -/
def resolveAlias (name : Text) : Reader Nat := do
  match (← get).anchors.find? fun (anchor, _) => anchor = name with
  | some (_, node) => return node
  | none => reject (.alias name)

/-- The name of a tag, its handle replaced by the address that it stands for. -/
def resolveTag (handle : Option Text) (suffix : Text) : Reader Text := do
  match handle with
  | none => return suffix
  | some handle =>
    match (← get).handles.find? fun (known, _) => known = handle with
    | some (_, address) => return address ++ suffix
    | none => reject .tag

/-- The anchor and the tag before a node, in either order. -/
def properties : Reader (Option Text × Option Text) := do
  match ← peek with
  | some (.anchor name) =>
    advance
    match ← peek with
    | some (.tag handle suffix) =>
      advance
      return (some name, some (← resolveTag handle suffix))
    | _ => return (some name, none)
  | some (.tag handle suffix) =>
    advance
    match ← peek with
    | some (.anchor name) =>
      advance
      return (some name, some (← resolveTag handle suffix))
    | _ => return (none, some (← resolveTag handle suffix))
  | _ => return (none, none)

/-- No tag is written, or only the mark of one. -/
def isUntagged (tag : Option Text) : Bool :=
  tag = none || tag = some ['!']

/-- The tag of a collection. -/
def collectionTag (tag : Option Text) (usual : Tag) : Tag :=
  match tag with
  | some name => if isUntagged tag then usual else .ofName name
  | none => usual

/-- The tag of a scalar. -/
def scalarTag (tag : Option Text) (plain : Bool) (text : CodePoints) : Tag :=
  match tag with
  | some name => if isUntagged tag then .ofScalar text else .ofName name
  | none => if plain then .ofScalar text else .str

end Graph
end SearchQuery.Yaml
