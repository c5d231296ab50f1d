import SearchQuery.Fault

/-!
Phrase tables keep the words of the quoted phrases of a query, negated and plain ones apart, while
placeholders stand for the phrases in its text. A placeholder names its table by a tag and its entry by an
index from one on, between two private-use characters that no query text keeps, so it holds no blank, no
bracket and no quote.
-/

namespace SearchQuery.Phrase

/-- The character that a placeholder starts with. -/
def openMark : Char := '\ue000'

/-- The character that a placeholder ends with. -/
def closeMark : Char := '\ue001'

/-- The character delimits placeholders. -/
def isMark (c : Char) : Bool :=
  c = openMark || c = closeMark

/-- The tag of negated phrases. -/
def negativeTag : Text := ['N', 'P', 'K']

/-- The tag of plain phrases. -/
def positiveTag : Text := ['P', 'K']

/-- The placeholder of an entry. -/
def placeholder (tag : Text) (index : Nat) : Text :=
  openMark :: tag ++ ':' :: Numeral.ofNat index ++ [closeMark]

/-- The words of the phrases found in a query, in the order of their indexes. -/
structure Tables where
  negative : List Text := []
  positive : List Text := []
deriving Repr, DecidableEq

namespace Tables

/-- The table of a tag. Only the tag of negated phrases has a table of its own. -/
def entries (tables : Tables) (tag : Text) : List Text :=
  if tag = negativeTag then tables.negative else tables.positive

/-- Enters a phrase into the table of a tag, and gives its placeholder. -/
def add (tables : Tables) (tag body : Text) : Tables × Text :=
  let mark := placeholder tag ((tables.entries tag).length + 1)
  if tag = negativeTag then (⟨tables.negative ++ [body], tables.positive⟩, mark)
  else (⟨tables.negative, tables.positive ++ [body]⟩, mark)

/-- The phrase behind a tag and an index. -/
def lookup (tables : Tables) (tag : Text) (index : Int) : Except LookupFault Text :=
  let entries := tables.entries tag
  let fault := LookupFault.phrase tag index entries.length
  match index with
  | .ofNat (n + 1) =>
    match entries[n]? with
    | some body => .ok body
    | none => .error fault
  | _ => .error fault

/-- The phrase behind a tag and a numeral. -/
def find (tables : Tables) (tag digits : Text) : Except LookupFault Text :=
  if Numeral.lengthLimit (tables.entries tag).length < digits.length then .error (.overlong digits.length)
  else tables.lookup tag (Numeral.value digits)

/-- There are no phrases in the tables. -/
def isEmpty (tables : Tables) : Bool :=
  tables.negative.isEmpty && tables.positive.isEmpty

end Tables
end SearchQuery.Phrase
