import SearchQuery.Proofs.CommandLine.Run
import SearchQuery.Proofs.Text.File

/-! What comes of the settings file. A file that is missing, a directory and a text that is not as it should be are
    reported in a message of their own, and the command ends with it. Three faults have none: a null character in the
    path, bytes that are no text, and a value that the message which should refuse it cannot show. They break the command
    off. -/

namespace SearchQuery.Settings

variable {V F : Type} {reader : DocumentReader V F} {home path : Text} {files : Text → FileState} {named : Option Text}
  {bytes : List UInt8} {contents : File.Contents}

/-- Settings come of the file, or it has a fault that there is a message for. -/
def Answered (loaded : Except (LoadFault F) Settings) : Prop :=
  (∃ settings, loaded = .ok settings) ∨ ∃ fault, loaded = .error (.file fault)

/-- The document has something else than a truth value for its setting, and what it has cannot be shown. -/
def Unshowable (reader : DocumentReader V F) (root : V) (fault : F) : Prop :=
  ∃ part value, reader.field? root "parser".toList = some part ∧
    reader.field? part "drop_unmatched_brackets".toList = some value ∧
      (∀ b, reader.form value ≠ .bool b) ∧ reader.display value = .error fault

/-! ### Documents -/

theorem refusal_cases (reader : DocumentReader V F) (value : V) :
    (∃ shown, refusal reader value = .file (.notBool shown)) ∨
      ∃ fault, reader.display value = .error fault ∧ refusal reader value = .unshowable fault := by
  unfold refusal
  split
  · exact .inl ⟨_, rfl⟩
  · next fault hdisplay => exact .inr ⟨fault, hdisplay, rfl⟩

/-- A section is answered, unless it has a value that cannot be shown. -/
theorem ofSection_cases (reader : DocumentReader V F) (path : Text) (part : V) :
    Answered (ofSection reader path part) ∨
      ∃ value fault, reader.field? part "drop_unmatched_brackets".toList = some value ∧
        (∀ b, reader.form value ≠ .bool b) ∧ reader.display value = .error fault ∧
          ofSection reader path part = .error (.unshowable fault) := by
  unfold ofSection
  split
  · exact .inl (.inl ⟨_, rfl⟩)
  · next field? hform =>
    rw [DocumentReader.field?_of_form hform]
    split
    · exact .inl (.inl ⟨_, rfl⟩)
    · next value hvalue =>
      split
      · exact .inl (.inl ⟨_, rfl⟩)
      · next hbool =>
        obtain ⟨shown, hrefusal⟩ | ⟨fault, hdisplay, hrefusal⟩ := refusal_cases reader value
        · rw [hrefusal]
          exact .inl (.inr ⟨_, rfl⟩)
        · rw [hrefusal]
          exact .inr ⟨value, fault, hvalue, hbool, hdisplay, rfl⟩
  · exact .inl (.inr ⟨_, rfl⟩)

theorem ofDocument_cases (reader : DocumentReader V F) (path : Text) (root : V) :
    Answered (ofDocument reader path root) ∨
      ∃ fault, Unshowable reader root fault ∧ ofDocument reader path root = .error (.unshowable fault) := by
  unfold ofDocument
  split
  · exact .inl (.inl ⟨_, rfl⟩)
  · next part hpart =>
    obtain hanswered | ⟨value, fault, hvalue, hbool, hdisplay, hsection⟩ := ofSection_cases reader path part
    · exact .inl hanswered
    · exact .inr ⟨fault, ⟨part, value, hpart, hvalue, hbool, hdisplay⟩, hsection⟩

/-- A document with a value that cannot be shown is refused for it. -/
theorem ofDocument_of_unshowable {root : V} {fault : F} (h : Unshowable reader root fault) :
    ofDocument reader path root = .error (.unshowable fault) := by
  obtain ⟨part, value, hpart, hvalue, hbool, hdisplay⟩ := h
  cases hform : reader.form part with
  | mapping field? =>
    rw [DocumentReader.field?_of_form hform] at hvalue
    simp only [ofDocument, hpart, ofSection, hform, hvalue, refusal, hdisplay]
  | _ =>
    rw [DocumentReader.field?, hform] at hvalue
    cases hvalue

theorem ofDocument_eq_unshowable_iff {root : V} {fault : F} :
    ofDocument reader path root = .error (.unshowable fault) ↔ Unshowable reader root fault := by
  refine ⟨fun h => ?_, ofDocument_of_unshowable⟩
  obtain (⟨_, hok⟩ | ⟨_, herror⟩) | ⟨found, hunshowable, hfound⟩ := ofDocument_cases reader path root
  · cases hok.symm.trans h
  · cases herror.symm.trans h
  · cases hfound.symm.trans h
    exact hunshowable

/-! ### What is read of a file -/

theorem ofContents_of_ok {root : V} (hread : reader.read contents = .ok root) :
    ofContents reader path contents = ofDocument reader path root := by
  rw [ofContents, hread]

/-- Only a value that is read can be one that is not shown. -/
theorem ofContents_eq_unshowable_iff {fault : F} :
    ofContents reader path contents = .error (.unshowable fault) ↔
      ∃ root, reader.read contents = .ok root ∧ Unshowable reader root fault := by
  constructor
  · intro h
    unfold ofContents at h
    split at h
    · next root hread => exact ⟨root, hread, ofDocument_eq_unshowable_iff.mp h⟩
    all_goals cases h
  · rintro ⟨root, hread, hunshowable⟩
    rw [ofContents_of_ok hread, ofDocument_of_unshowable hunshowable]

/-- A text is answered, unless its value cannot be shown. -/
theorem ofContents_of_text (hreader : reader.Lawful) (path : Text) (hfault : contents.fault = none) :
    Answered (ofContents reader path contents) ∨ ∃ fault, ofContents reader path contents = .error (.unshowable fault) := by
  cases hread : reader.read contents with
  | ok root =>
    rw [ofContents_of_ok hread]
    exact (ofDocument_cases reader path root).imp_right fun ⟨fault, _, h⟩ => ⟨fault, h⟩
  | error refused =>
    obtain ⟨problem, rfl⟩ := hreader.refuses_as_invalid hfault hread
    rw [ofContents, hread]
    exact .inl (.inr ⟨_, rfl⟩)

/-- Of bytes that are no text come no settings. They are refused as such, or the text before them is. -/
theorem ofContents_of_fault (hreader : reader.Lawful) (path : Text) {fault : Utf8.Fault}
    (hfault : contents.fault = some fault) :
    ofContents reader path contents = .error (.encoding fault) ∨
      ∃ problem, ofContents reader path contents = .error (.file (.invalid path problem)) := by
  obtain hread | ⟨problem, hread⟩ := hreader.passes_on_fault hfault
  · rw [ofContents, hread]
    exact .inl rfl
  · rw [ofContents, hread]
    exact .inr ⟨problem, rfl⟩

theorem ofContents_of_first_fault (hreader : reader.Lawful) (path : Text) {fault : Utf8.Fault}
    (hfault : contents.fault = some fault) (hportions : contents.portions = []) :
    ofContents reader path contents = .error (.encoding fault) := by
  have hcontents : contents = ⟨[], some fault⟩ := by
    rw [← hportions, ← hfault]
  rw [hcontents, ofContents, hreader.passes_on_first_fault]

/-- In a file that fills no portion, no text comes before the bytes that are none. -/
theorem portions_eq_nil (h : (File.read bytes).fault ≠ none) (hshort : bytes.length < File.portion) :
    (File.read bytes).portions = [] := by
  have hlength := File.length_portions_le h
  rw [Nat.div_eq_of_lt hshort] at hlength
  exact List.length_eq_zero_iff.mp (Nat.le_zero.mp hlength)

/-! ### Files -/

theorem load_of_null (hpath : '\x00' ∈ pathOf home named) :
    load reader home files named = if named.isSome then .error .nullInPath else .ok {} :=
  if_pos (List.contains_iff_mem.mpr hpath)

theorem load_of_content (hpath : '\x00' ∉ pathOf home named) (hfile : files (pathOf home named) = .content bytes) :
    load reader home files named = ofContents reader (pathOf home named) (File.read bytes) := by
  have hnull : ¬(pathOf home named).contains '\x00' = true := mt List.contains_iff_mem.mp hpath
  simp only [load, if_neg hnull, hfile]

/-- A path without a file to read is answered. -/
theorem load_answered (hpath : '\x00' ∉ pathOf home named)
    (hfile : ∀ bytes, files (pathOf home named) ≠ .content bytes) : Answered (load reader home files named) := by
  have hnull : ¬(pathOf home named).contains '\x00' = true := mt List.contains_iff_mem.mp hpath
  simp only [load, if_neg hnull]
  split
  · split
    · exact .inr ⟨_, rfl⟩
    · exact .inl ⟨_, rfl⟩
  · exact .inr ⟨_, rfl⟩
  · next bytes hbytes => exact absurd hbytes (hfile bytes)

/-- Of a file that is no text come no settings: the fault in its bytes is passed on, or the text before it is refused.
    Where no portion is filled, nothing is refused before. -/
theorem load_of_not_isText (hreader : reader.Lawful) (files : Text → FileState) (hpath : '\x00' ∉ pathOf home named)
    (hfile : files (pathOf home named) = .content bytes) (htext : ¬Utf8.IsText bytes) :
    ∃ fault, (File.read bytes).fault = some fault ∧
      (load reader home files named = .error (.encoding fault) ∨
        ∃ problem, load reader home files named = .error (.file (.invalid (pathOf home named) problem))) ∧
      (bytes.length < File.portion → load reader home files named = .error (.encoding fault)) := by
  have hfault := mt (File.read_fault_eq_none_iff bytes).mp htext
  obtain ⟨fault, hsome⟩ := Option.ne_none_iff_exists'.mp hfault
  rw [load_of_content hpath hfile]
  exact ⟨fault, hsome, ofContents_of_fault hreader _ hsome, fun hshort =>
    ofContents_of_first_fault hreader _ hsome (portions_eq_nil hfault hshort)⟩

/-! ### A file that is no text -/

theorem emptyReader_lawful : CommandLine.emptyReader.Lawful where
  refuses_as_invalid {contents fault} hfault hread := by
    simp only [CommandLine.emptyReader, hfault] at hread
    split at hread
    · cases hread
    · cases hread
      exact ⟨_, rfl⟩
  passes_on_fault hfault := .inl (by simp only [CommandLine.emptyReader, hfault])
  passes_on_first_fault _ := rfl

theorem not_isText_undecodable : ¬Utf8.IsText [0xFF] := by
  have hstart : Utf8.followers? 0xFF = none := by decide
  rw [Utf8.isText_iff 0, Utf8.decodeFrom, hstart]
  exact fun h => by cases h

/-- A file of one byte that starts no character is not answered. -/
theorem not_load_answered :
    ¬∀ (V F : Type) (reader : DocumentReader V F) (home : Text) (files : Text → FileState) (named : Option Text),
      reader.Lawful → Answered (load reader home files named) := by
  intro hclaim
  have hpath : '\x00' ∉ pathOf [] none := by decide
  obtain ⟨fault, -, -, hload⟩ :=
    load_of_not_isText emptyReader_lawful (fun _ => .content [0xFF]) hpath rfl not_isText_undecodable
  have hanswered := hclaim Unit Empty CommandLine.emptyReader [] (fun _ => .content [0xFF]) none emptyReader_lawful
  rw [hload (by decide)] at hanswered
  obtain ⟨_, h⟩ | ⟨_, h⟩ := hanswered
  all_goals cases h

end SearchQuery.Settings

namespace SearchQuery.CommandLine
open Settings

/-- What the command does with its settings file, for each path and each state of the file there. -/
theorem settings_outcome {V F : Type} (around : Surroundings V F) (hreader : around.reader.Lawful)
    (named : Option Text) :
    ('\x00' ∈ pathOf around.home named →
        around.settings named = if named.isSome then .error .nullInPath else .ok {}) ∧
      ('\x00' ∉ pathOf around.home named →
        ((∀ bytes, around.files (pathOf around.home named) ≠ .content bytes) → Answered (around.settings named)) ∧
        ∀ bytes, around.files (pathOf around.home named) = .content bytes →
          (Utf8.IsText bytes →
            (Answered (around.settings named) ∨ ∃ fault, around.settings named = .error (.unshowable fault)) ∧
            ∀ fault, around.settings named = .error (.unshowable fault) ↔
              ∃ root, around.reader.read (File.read bytes) = .ok root ∧ Unshowable around.reader root fault) ∧
          (¬Utf8.IsText bytes → ∃ fault, (File.read bytes).fault = some fault ∧
            (around.settings named = .error (.encoding fault) ∨
              ∃ problem, around.settings named = .error (.file (.invalid (pathOf around.home named) problem))) ∧
            (bytes.length < File.portion → around.settings named = .error (.encoding fault)))) ∧
      ∀ (arguments : List Text) (asked : Request), request arguments = .ok asked →
        asked.settingsPath? (F := F) = .ok named →
          (∀ fault, around.settings named = .error (.file fault) → run arguments around =
            .ok { exit := 1, output := [], errors := "Error: ".toList ++ fault.message ++ ['\n'] }) ∧
          ∀ fault, around.settings named = .error fault → (∀ f, fault ≠ .file f) →
            run arguments around = .error (.settings fault) := by
  refine ⟨load_of_null, fun hpath => ⟨load_answered hpath, fun bytes hfile => ⟨fun htext => ?_, fun htext => ?_⟩⟩,
    fun arguments asked hasked hpath => ?_⟩
  · have hfault := (File.read_fault_eq_none_iff bytes).mpr htext
    rw [Surroundings.settings, load_of_content hpath hfile]
    exact ⟨ofContents_of_text hreader _ hfault, fun fault => ofContents_eq_unshowable_iff⟩
  · exact load_of_not_isText hreader _ hpath hfile htext
  · rw [run_of_request hasked]
    exact ⟨fun _ hload => asked.run_of_fileFault hpath hload, fun _ hload => asked.run_of_loadFault hpath hload⟩

/-- A null character for a name; and at the usual place an empty file, a directory, and a file of one byte that starts no
    character. -/
theorem settings_outcome_undecodable :
    emptyReader.Lawful ∧ request [] = .ok {} ∧ ({} : Request).settingsPath? (F := Empty) = .ok none ∧
      ('\x00' ∈ pathOf [] (some ['\x00']) ∧
        Surroundings.settings (.holding .missing []) (some ['\x00']) = .error .nullInPath) ∧
      '\x00' ∉ pathOf [] none ∧
      (Utf8.IsText [] ∧ Answered (Surroundings.settings (.holding (.content []) []) none)) ∧
      run [] (.holding .directory []) = .ok
        { exit := 1, output := []
          errors := "Error: ".toList ++ (FileFault.directory (usualPath [])).message ++ ['\n'] } ∧
      ¬Utf8.IsText [0xFF] ∧
      ∃ fault, run [] (.holding (.content [0xFF]) []) = .error (.settings (.encoding fault)) := by
  have hkinds : classifyAll [] = .ok [] := rfl
  have hprogress : understand {} [] = .ok {} := by rw [understand]
  have hrequest : request [] = .ok {} := request_of_kinds hkinds hprogress rfl
  have hnull : '\x00' ∈ pathOf [] (some ['\x00']) := by decide
  have hpath : '\x00' ∉ pathOf [] none := by decide
  have hempty : Utf8.IsText [] := ⟨[], rfl⟩
  obtain ⟨hrefused, -, -⟩ := settings_outcome (.holding .missing []) emptyReader_lawful (some ['\x00'])
  obtain ⟨-, hloaded, -⟩ := settings_outcome (.holding (.content []) []) emptyReader_lawful none
  obtain ⟨hanswered, -⟩ := ((hloaded hpath).2 [] rfl).1 hempty
  obtain ⟨-, -, hrun⟩ := settings_outcome (.holding .directory []) emptyReader_lawful none
  obtain ⟨-, hcontent, hcrash⟩ := settings_outcome (.holding (.content [0xFF]) []) emptyReader_lawful none
  obtain ⟨fault, -, -, hshort⟩ := ((hcontent hpath).2 [0xFF] rfl).2 not_isText_undecodable
  have hcrashed := (hcrash [] {} hrequest rfl).2 _ (hshort (by decide)) fun f hf => by cases hf
  refine ⟨emptyReader_lawful, hrequest, rfl, ⟨hnull, hrefused hnull⟩, hpath, ⟨hempty, hanswered.resolve_right ?_⟩,
    (hrun [] {} hrequest rfl).1 _ rfl, not_isText_undecodable, fault, hcrashed⟩
  rintro ⟨fault, -⟩
  cases fault

end SearchQuery.CommandLine
