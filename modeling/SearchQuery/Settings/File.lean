import SearchQuery.Settings.Basic
import SearchQuery.Settings.Reader
import SearchQuery.Text.Quoted

/-!
Settings from a file. The file at the usual place may be missing, one that is named must be there. The
settings stand in a section of their own; what the file says besides them is not looked at.
-/

namespace SearchQuery.Settings

variable {V F : Type}

/-- What is found at a path. -/
inductive FileState where
  | missing
  | directory
  | content (bytes : List UInt8)

/-- Why a settings file cannot be used. -/
inductive FileFault where
  | missing (path : Text)
  | directory (path : Text)
  | invalid (path problem : Text)
  | notMapping (path : Text)
  /-- A value that should be true or false is something else, which is shown. -/
  | notBool (shown : Text)

/-- Why no settings come of a file: it cannot be used, or what should read it or name its fault breaks off. -/
inductive LoadFault (F : Type) where
  | file (fault : FileFault)
  /-- A null character in the path: no file can be there. -/
  | nullInPath
  /-- The bytes of the file are no text. -/
  | encoding (fault : Utf8.Fault)
  /-- The reader of the document breaks off. -/
  | document (fault : F)
  /-- The value that a message is to refuse cannot be shown. -/
  | unshowable (fault : F)

/-- The start of the message for a file that is no document. -/
def invalidMessage (path : Text) : Text :=
  "Invalid YAML in ".toList ++ path ++ [':', ' ']

/-- The message for a file that cannot be used. -/
def FileFault.message : FileFault → Text
  | .missing path =>
    "Cannot read ".toList ++ path ++ ": [Errno 2] No such file or directory: ".toList ++ path.quoted
  | .directory path => "Cannot read ".toList ++ path ++ ": [Errno 21] Is a directory: ".toList ++ path.quoted
  | .invalid path problem => invalidMessage path ++ problem
  | .notMapping path => "'parser' section in ".toList ++ path ++ " must be a mapping".toList
  | .notBool shown => "drop_unmatched_brackets must be true or false, got ".toList ++ shown

/-- The message for a file of which no settings come, given those for the faults of its reader. -/
def LoadFault.message (explain : F → Text) : LoadFault F → Text
  | .file fault => fault.message
  | .nullInPath => "embedded null byte".toList
  | .encoding fault => fault.message
  | .document fault => explain fault
  | .unshowable fault => explain fault

/-- Why a value is not used where a truth value is expected. The message for it shows the value. -/
def refusal (reader : DocumentReader V F) (value : V) : LoadFault F :=
  match reader.display value with
  | .ok shown => .file (.notBool shown)
  | .error fault => .unshowable fault

/-- The settings in the section for them. Those that it does not mention have their usual values. -/
def ofSection (reader : DocumentReader V F) (path : Text) (part : V) : Except (LoadFault F) Settings :=
  match reader.form part with
  | .null => .ok {}
  | .mapping field? =>
    match field? "drop_unmatched_brackets".toList with
    | none => .ok {}
    | some value =>
      match reader.form value with
      | .bool b => .ok { dropUnmatchedBrackets := b }
      | _ => .error (refusal reader value)
  | _ => .error (.file (.notMapping path))

/-- The settings that a document holds, given its value. -/
def ofDocument (reader : DocumentReader V F) (path : Text) (root : V) : Except (LoadFault F) Settings :=
  match reader.field? root "parser".toList with
  | none => .ok {}
  | some part => ofSection reader path part

/-- The settings in what can be read of a file. -/
def ofContents (reader : DocumentReader V F) (path : Text) (contents : File.Contents) :
    Except (LoadFault F) Settings :=
  match reader.read contents with
  | .ok root => ofDocument reader path root
  | .error (.invalid problem) => .error (.file (.invalid path problem))
  | .error (.encoding fault) => .error (.encoding fault)
  | .error (.other fault) => .error (.document fault)

/-- The path of the settings file of a home directory. Slashes at the end of the directory do not count. -/
def usualPath (home : Text) : Text :=
  (home.reverse.dropWhile (· = '/')).reverse ++ "/.config/querytree/querytree.yml".toList

/-- The path of the settings file: the one that is named, or else the usual one. -/
def pathOf (home : Text) (named : Option Text) : Text :=
  named.getD (usualPath home)

/-- The settings of the file that is named, or else of the file at the usual place, if there is one. -/
def load (reader : DocumentReader V F) (home : Text) (files : Text → FileState) (named : Option Text) :
    Except (LoadFault F) Settings :=
  let path := pathOf home named
  if path.contains '\x00' then
    if named.isSome then .error .nullInPath else .ok {}
  else
    match files path with
    | .missing => if named.isSome then .error (.file (.missing path)) else .ok {}
    | .directory => .error (.file (.directory path))
    | .content bytes => ofContents reader path (File.read bytes)

end SearchQuery.Settings
