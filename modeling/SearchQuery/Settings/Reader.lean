import SearchQuery.Text.File

/-!
Readers of documents. A settings file is written in a language of its own, and what reads that language is
given from outside. This file says what is asked of such a reader, and on what of its answers the library
relies: it gives a value or says why there is none, and values have a form and can be shown.
-/

namespace SearchQuery

/-- Why a reader gives no value for a file. -/
inductive ReadFault (F : Type) where
  /-- The text is no document, for the problem that the reader names. -/
  | invalid (problem : Text)
  /-- The bytes that come next are no text. -/
  | encoding (fault : Utf8.Fault)
  /-- The reader breaks off for a reason of its own. -/
  | other (fault : F)

/-- The form of a value. -/
inductive Form (V : Type) where
  | null
  | bool (b : Bool)
  /-- A mapping, given by the value that it has under a name. -/
  | mapping (field? : Text → Option V)
  /-- Anything else. -/
  | other

/-- A reader of documents whose values are of type `V`. What may go wrong in it for reasons of its own, while it
    reads a file or shows a value, is of type `F`. -/
structure DocumentReader (V F : Type) where
  /-- The value of the document in a file. -/
  read : File.Contents → Except (ReadFault F) V
  /-- The form of a value. -/
  form : V → Form V
  /-- How a value is shown in a message. -/
  display : V → Except F Text

namespace DocumentReader

variable {V F : Type}

/-- The value under a name, if the value is a mapping that has one. -/
def field? (reader : DocumentReader V F) (value : V) (name : Text) : Option V :=
  match reader.form value with
  | .mapping field? => field? name
  | _ => none

theorem field?_of_form {reader : DocumentReader V F} {value : V} {field? : Text → Option V}
    (h : reader.form value = .mapping field?) : reader.field? value = field? := by
  funext name
  rw [DocumentReader.field?, h]

/-- What is relied on of a reader: it refuses a text only as no document, and it passes on a fault in the bytes. -/
structure Lawful (reader : DocumentReader V F) : Prop where
  /-- A file that is a text has a value, or it is no document. -/
  refuses_as_invalid : ∀ {contents : File.Contents} {fault : ReadFault F}, contents.fault = none →
    reader.read contents = .error fault → ∃ problem, fault = .invalid problem
  /-- A fault in the bytes is passed on, unless the text before it is refused. -/
  passes_on_fault : ∀ {contents : File.Contents} {fault : Utf8.Fault}, contents.fault = some fault →
    reader.read contents = .error (.encoding fault) ∨ ∃ problem, reader.read contents = .error (.invalid problem)
  /-- Where no text comes before a fault in the bytes, none is refused. -/
  passes_on_first_fault : ∀ fault : Utf8.Fault, reader.read ⟨[], some fault⟩ = .error (.encoding fault)

end DocumentReader
end SearchQuery
