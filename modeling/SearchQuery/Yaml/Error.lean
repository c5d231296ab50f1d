import SearchQuery.Fault
import SearchQuery.Text.CodePoint
import SearchQuery.Text.Utf8
import SearchQuery.Value.Basic

/-!
Why a YAML document has no value. A document that breaks the rules of the language is refused; but a scalar
can also be of another form than its tag promises, a number can be out of every range, and a node can need
itself to be read.
-/

namespace SearchQuery.Yaml

/-- A rule of the language that a document breaks. -/
inductive Problem where
  | unprintable (c : Char)
  | character (c : Char)
  | unfinished
  | markerInScalar
  | escape
  | missingColon
  | entryNotAllowed
  | keyNotAllowed
  | valueNotAllowed
  | directive
  | version
  | name
  | tag
  | blockHeader
  | content
  | blockEnd
  | flowEnd
  | alias (anchor : Text)
  | duplicateAnchor (anchor : Text)
  | secondDocument
  | unknownTag
  | mismatchedTag
  | unhashableKey
  | merge
  | base64

/-- What else keeps a document from having a value. -/
inductive Fault where
  /-- No numeral in a base. -/
  | numeral (base : Nat) (s : CodePoints)
  /-- A numeral of too many digits. -/
  | overlong (length : Nat)
  /-- No decimal. -/
  | decimal (s : CodePoints)
  /-- The weight of a part in base sixty is beyond all floating-point numbers. -/
  | weight
  /-- No number at all: nothing stands where a sign or a digit should. -/
  | empty
  /-- No truth value. -/
  | flag (s : CodePoints)
  /-- No date. -/
  | date
  /-- A date that is not written in its own node. -/
  | dateElsewhere
  /-- A part of a date out of its range, in words. -/
  | range (what : Text)
  /-- A zone a day or more from universal time, in minutes. -/
  | zone (minutes : Int)
  /-- A number beyond the code points. -/
  | codePoint
  /-- A number far beyond the code points. -/
  | codePointSize
  /-- Nodes that nest too deep, or without an end. -/
  | nesting
  /-- A number that is too long to be shown. -/
  | overlongDisplay
  /-- Collections that nest too deep to be shown. -/
  | deepDisplay

/-- Why a document whose text is known has no value. -/
inductive Error where
  | problem (p : Problem)
  | fault (f : Fault)

/-- Why no value comes of an input: an error of the document, or bytes that are no text. -/
inductive Failure where
  | error (e : Error)
  | encoding (f : Utf8.Fault)

/-- What is said about a broken rule. -/
def Problem.message : Problem → Text
  | .unprintable c => "special character not allowed: ".toList ++ Text.quoted [c]
  | .character c => "no token starts with ".toList ++ Text.quoted [c]
  | .unfinished => "document ends too early".toList
  | .markerInScalar => "document marker inside a quoted scalar".toList
  | .escape => "unknown escape in a quoted scalar".toList
  | .missingColon => "colon missing after a key".toList
  | .entryNotAllowed => "sequence entry not allowed here".toList
  | .keyNotAllowed => "mapping key not allowed here".toList
  | .valueNotAllowed => "mapping value not allowed here".toList
  | .directive => "malformed directive".toList
  | .version => "incompatible version".toList
  | .name => "malformed name of an anchor or alias".toList
  | .tag => "malformed or undefined tag".toList
  | .blockHeader => "malformed header of a block scalar".toList
  | .content => "node content expected".toList
  | .blockEnd => "end of a block collection expected".toList
  | .flowEnd => "comma or end of a flow collection expected".toList
  | .alias anchor => "undefined alias ".toList ++ anchor.quoted
  | .duplicateAnchor anchor => "duplicate anchor ".toList ++ anchor.quoted
  | .secondDocument => "a second document".toList
  | .unknownTag => "no value for this tag".toList
  | .mismatchedTag => "tag of another kind of node".toList
  | .unhashableKey => "collection as a mapping key".toList
  | .merge => "mapping or sequence of mappings expected for merging".toList
  | .base64 => "malformed base64 data".toList

/-- What is said about another fault. -/
def Fault.message : Fault → Text
  | .numeral base s => invalidNumeral base s.quoted
  | .overlong length => Numeral.overlongMessage length
  | .decimal s => "could not convert string to float: ".toList ++ s.quoted
  | .weight => "int too large to convert to float".toList
  | .empty => "string index out of range".toList
  | .flag s => s.quoted
  | .date => "'NoneType' object has no attribute 'groupdict'".toList
  | .dateElsewhere => "expected string or bytes-like object, got 'list'".toList
  | .range what => what
  | .zone minutes =>
    "offset must be a timedelta strictly between -timedelta(hours=24) and timedelta(hours=24), not ".toList ++
      Value.displaySpan minutes ++ ['.']
  | .codePoint => "chr() arg not in range(0x110000)".toList
  | .codePointSize => "Python int too large to convert to C int".toList
  | .nesting => "maximum recursion depth exceeded".toList
  | .overlongDisplay => Numeral.unshowableMessage
  | .deepDisplay => "maximum recursion depth exceeded while getting the repr of an object".toList

end SearchQuery.Yaml
