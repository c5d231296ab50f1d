import SearchQuery.Text.Escape
import SearchQuery.Condition.Basic

/-!
Conditions as JSON on one line. Every kind of condition has a name of its own: the blank condition is its
name alone, any other is an object with one field that has this name. Text stays as it is but for quotes,
backslashes and control characters, so the line has no line break in it.
-/

namespace SearchQuery

/-- The JSON values that conditions are written with. -/
inductive Json where
  | string (s : Text)
  | array (items : List Json)
  | tagged (tag : Text) (content : Json)
deriving Repr

namespace Json

/-- A character inside a JSON string. -/
def escape (c : Char) : Text :=
  if c = '"' then ['\\', '"']
  else if c = '\\' then ['\\', '\\']
  else if c = '\n' then ['\\', 'n']
  else if c = '\r' then ['\\', 'r']
  else if c = '\t' then ['\\', 't']
  else if c = '\x0c' then ['\\', 'f']
  else if c = '\x08' then ['\\', 'b']
  else if c.toNat < 0x20 then '\\' :: 'u' :: hexDigits 4 c.toNat
  else [c]

/-- A text as a JSON string. -/
def writeString (s : Text) : Text :=
  '"' :: s.flatMap escape ++ ['"']

mutual

/-- A JSON value on one line, with a space after each comma and colon. -/
def write : Json → Text
  | .string s => writeString s
  | .array items => '[' :: writeItems items ++ [']']
  | .tagged tag content => '\x7b' :: writeString tag ++ ':' :: ' ' :: write content ++ ['\x7d']

/-- The items of an array, with a comma between two neighbours. -/
def writeItems : List Json → Text
  | [] => []
  | [item] => write item
  | item :: items => write item ++ ',' :: ' ' :: writeItems items

end

end Json

/-- The name of a connective in JSON. -/
def Connective.name : Connective → Text
  | .and => ['A', 'n', 'd']
  | .or => ['O', 'r']

namespace Condition

variable {α : Type}

mutual

/-- A condition as a JSON value, or the first foreign value in it. -/
def json? : Condition α → Except α Json
  | .blank => .ok (.string ['N', 'o', 'n', 'e'])
  | .keyword term => .ok (.tagged ['K', 'e', 'y', 'w', 'o', 'r', 'd'] (.string term))
  | .phrase words =>
    .ok (.tagged ['P', 'h', 'r', 'a', 's', 'e', 'K', 'e', 'y', 'w', 'o', 'r', 'd'] (.string words))
  | .negation c => do
    let inner ← json? c
    return .tagged ['N', 'o', 't'] inner
  | .compound op parts => do
    let items ← jsonAll? parts
    return .tagged ['O', 'p', 'e', 'r', 'a', 't', 'o', 'r'] (.array [.string op.name, .array items])
  | .foreign value => .error value

/-- Several conditions as JSON values, from the left. -/
def jsonAll? : List (Condition α) → Except α (List Json)
  | [] => .ok []
  | c :: cs => do
    let item ← json? c
    let items ← jsonAll? cs
    return item :: items

end

/-- A closed condition as JSON on one line. -/
def jsonLine (c : ClosedCondition) : Text :=
  (certain (json? c)).write

end Condition
end SearchQuery
