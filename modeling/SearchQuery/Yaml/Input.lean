import SearchQuery.Text.File
import SearchQuery.Yaml.Error

/-!
What a document is read from: the text that is known, and the error that is met where it ends, unless the
document ends there too. A file is known portion by portion, and a character that may not stand in a document
spoils its portion. The first two portions are fetched together, so an error in one of them leaves nothing
known; otherwise the document is read up to the error, and may have errors of its own before it.
-/

namespace SearchQuery.Yaml

/-- The characters that may stand in a document. -/
def allowedRanges : Ranges :=
  [(0x9, 0xA), (0xD, 0xD), (0x20, 0x7E), (0x85, 0x85), (0xA0, 0xD7FF), (0xE000, 0xFFFD), (0x10000, 0x10FFFF)]

/-- The first character of a text that may not stand in a document. -/
def unprintable? (s : Text) : Option Char :=
  s.find? fun c => !allowedRanges.has c

/-- The text of a document as far as it is known, and what is met there. -/
structure Input where
  text : Text
  ending : Option Failure := none

namespace Input

/-- The portions before the first that is spoilt, and the character in it. -/
def sound : List Text → List Text × Option Char
  | [] => ([], none)
  | portion :: portions =>
    match unprintable? portion with
    | some c => ([], some c)
    | none =>
      let (later, spoilt) := sound portions
      (portion :: later, spoilt)

/-- The input that portions give before an error. -/
def before (portions : List Text) (e : Failure) : Input :=
  { text := if portions.length < 2 then [] else portions.flatten, ending := some e }

/-- The input that a file gives. -/
def ofFile (contents : File.Contents) : Input :=
  match sound contents.portions, contents.fault with
  | (portions, none), none => { text := portions.flatten }
  | (portions, none), some fault => before portions (.encoding fault)
  | (portions, some c), none => before portions (.error (.problem (.unprintable c)))
  | (portions, some c), some fault =>
    if contents.portions.length < 2 then before portions (.encoding fault)
    else before portions (.error (.problem (.unprintable c)))

end Input
end SearchQuery.Yaml
