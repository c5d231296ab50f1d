import SearchQuery.Text.Quoted
import SearchQuery.Text.Numeral
import SearchQuery.Condition.Basic

/-!
What can go wrong between a query text and its condition. A placeholder that leads nowhere is a fault of the
reader itself; a value of a foreign kind where a condition or a node is expected is a fault of its caller.
-/

namespace SearchQuery

/-- Values that may stand where a condition or a node is expected: the name of their kind, and how they are
    shown. -/
class Foreign (α : Type) where
  kind : α → Text
  display : α → Text

/-- There is no foreign value in a closed condition. -/
instance : Foreign Empty where
  kind := nofun
  display := nofun

/-- Why a placeholder does not lead to what it stands for. -/
inductive LookupFault where
  /-- A phrase placeholder whose table has no entry of that index. -/
  | phrase (tag : Text) (index : Int) (size : Nat)
  /-- A bracket placeholder whose table has no entry of that index. -/
  | bracket (index size : Nat)
  /-- A bracket placeholder that stands inside its own entry. -/
  | nesting
  /-- A placeholder whose index has too many digits to be read. -/
  | overlong (length : Nat)
deriving Repr, DecidableEq

/-- Why a node of a skeleton does not lead to a condition. -/
inductive SlotFault (α : Type) where
  /-- A term that is no index of a condition. -/
  | unresolved (key : Text) (size : Nat)
  /-- A term made of digits, one of them without a place value. -/
  | numeral (key : Text)
  /-- A term that starts with too many digits to be read. -/
  | overlong (length : Nat)
  /-- A node that is neither a term nor a compound. -/
  | unexpected (node : Condition α)

/-- Why a tree of layers has no condition. -/
inductive Fault (α : Type) where
  | lookup (fault : LookupFault)
  | slot (fault : SlotFault Empty)
  /-- A foreign value where a node is expected. -/
  | node (value : α)

namespace Condition

variable {α : Type} [Foreign α]

/-- How a connective is shown in a message. -/
def displayConnective : Connective → Text
  | .and => "<OperatorType.AND: 'And'>".toList
  | .or => "<OperatorType.OR: 'Or'>".toList

mutual

/-- How a condition is shown in a message. -/
def display : Condition α → Text
  | .blank => "None".toList
  | .keyword term => "Keyword(value=".toList ++ term.quoted ++ [')']
  | .phrase words => "PhraseKeyword(value=".toList ++ words.quoted ++ [')']
  | .negation c => "Not(operand=".toList ++ display c ++ [')']
  | .compound op parts =>
    "Operator(op=".toList ++ displayConnective op ++ ", conditions=[".toList ++ displayAll parts ++ "])".toList
  | .foreign value => Foreign.display value

/-- Several conditions, with a comma between two neighbours. -/
def displayAll : List (Condition α) → Text
  | [] => []
  | [c] => display c
  | c :: cs => display c ++ ", ".toList ++ displayAll cs

end

end Condition

/-- The message for digits that are no numeral in a base: of their text in quotes, so much as has room. -/
def invalidNumeral (base : Nat) (quoted : Text) : Text :=
  "invalid literal for int() with base ".toList ++ Numeral.ofNat base ++ ':' :: ' ' :: quoted.take 200

/-- The fault is one of the reader itself, not of the index that it was given. -/
def LookupFault.isInternal : LookupFault → Bool
  | .overlong _ => false
  | _ => true

/-- The message of a fault of a placeholder. -/
def LookupFault.message : LookupFault → Text
  | .phrase tag index size =>
    "Unresolvable phrase placeholder ".toList ++ tag ++ ':' :: Numeral.ofInt index ++
      " (table holds ".toList ++ Numeral.ofNat size ++ " entries)".toList
  | .bracket index size =>
    "Unresolvable bracket placeholder （".toList ++ Numeral.ofNat index ++
      "） (table holds ".toList ++ Numeral.ofNat size ++ " entries)".toList
  | .nesting => "Bracket placeholder inside its own entry".toList
  | .overlong length => Numeral.overlongMessage length

namespace SlotFault

variable {α : Type}

/-- The fault is one of the reader itself, not of the numeral that it was given. -/
def isInternal : SlotFault α → Bool
  | .numeral _ | .overlong _ => false
  | _ => true

/-- The message of a fault of a skeleton node. -/
def message [Foreign α] : SlotFault α → Text
  | .unresolved key size =>
    "Unresolvable skeleton placeholder ".toList ++ key.quoted ++
      " (".toList ++ Numeral.ofNat size ++ " conditions recorded)".toList
  | .numeral key => invalidNumeral 10 key.quoted
  | .overlong length => Numeral.overlongMessage length
  | .unexpected c => "Unexpected skeleton node: ".toList ++ c.display

end SlotFault

variable {α : Type} [Foreign α]

/-- The message for a foreign value where a condition is expected. -/
def unknownCondition (value : α) : Text :=
  "Unknown condition type: <class '".toList ++ Foreign.kind value ++ "'>".toList

/-- The message for a foreign value where a node is expected. -/
def unknownNode (value : α) : Text :=
  "Unknown layered node type: <class '".toList ++ Foreign.kind value ++ "'>".toList

/-- The message of a fault of a tree of layers. -/
def Fault.message : Fault α → Text
  | .lookup fault => fault.message
  | .slot fault => fault.message
  | .node value => unknownNode value

end SearchQuery
