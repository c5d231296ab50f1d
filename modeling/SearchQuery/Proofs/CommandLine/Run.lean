import SearchQuery.CommandLine.Run
import SearchQuery.Proofs.Query.Margins

/-! What the command does, case by case: it breaks off, it ends with a message about the settings file, or it shows the
    condition of its query. A query that is piped to it ends with a line feed, which is a blank at the end of the query.
    So the command shows what it shows when the words of the query are its arguments; only the notices can tell the two
    apart, since they show the text of the query. -/

namespace SearchQuery.CommandLine

variable {V F : Type}

/-! ### Running a request -/

namespace Request

variable {request : Request} {around : Surroundings V F} {path : Option Text}

theorem run_of_crash {crash : Crash F} (hpath : request.settingsPath? = .error crash) :
    request.run around = .error crash := by
  rw [run, hpath]
  rfl

theorem run_of_fileFault {fault : Settings.FileFault} (hpath : request.settingsPath? (F := F) = .ok path)
    (hload : around.settings path = .error (.file fault)) :
    request.run around = .ok { exit := 1, errors := "Error: ".toList ++ fault.message ++ ['\n'] } := by
  simp only [run, hpath, hload, bind, Except.bind]
  rfl

/-- A settings file that cannot be used for another reason than its own faults breaks the command off. -/
theorem run_of_loadFault {fault : Settings.LoadFault F} (hpath : request.settingsPath? (F := F) = .ok path)
    (hload : around.settings path = .error fault) (hfault : ∀ f, fault ≠ .file f) :
    request.run around = .error (.settings fault) := by
  cases fault with
  | file f => exact absurd rfl (hfault f)
  | _ => simp only [run, hpath, hload, bind, Except.bind]

/-- What the command writes about its query. -/
theorem run_of_settings {settings : Settings} {c : ClosedCondition} (hpath : request.settingsPath? (F := F) = .ok path)
    (hload : around.settings path = .ok settings)
    (hparse : Query.parse settings (request.query around.input) = .ok c) :
    request.run around = .ok
      { output := request.write around.console c
        errors :=
          (if request.verbose then Notice.ofQuery settings (request.query around.input) else []).flatMap
            (·.line ++ ['\n']) } := by
  simp only [run, hpath, hload, hparse, bind, Except.bind]
  rfl

end Request

theorem request_of_kinds {arguments : List Text} {kinds : List Argument} {progress : Progress}
    (hkinds : classifyAll arguments = .ok kinds) (hprogress : understand {} kinds = .ok progress)
    (hextra : progress.extra = []) : request arguments = .ok progress.request := by
  simp only [request, hkinds, Except.mapError, hprogress, bind, Except.bind, hextra]
  rfl

theorem run_of_request {arguments : List Text} {asked : Request} {around : Surroundings V F}
    (h : request arguments = .ok asked) : run arguments around = asked.run around := by
  rw [run, h]

/-! ### Queries from the input -/

/-- What an outcome is without the notices: the exit code and the output. -/
def Outcome.shown (outcome : Outcome) : Nat × Text :=
  (outcome.exit, outcome.output)

/-- The words of a query on one line. -/
def lineOf (words : List Text) : Text :=
  Text.joinWith [' '] words ++ ['\n']

/-- The request for the same with a query from the input. -/
def Request.piped (request : Request) : Request :=
  { request with words := [] }

/-- The same surroundings with the line of some words for their input. -/
def Surroundings.fed (around : Surroundings V F) (words : List Text) : Surroundings V F :=
  { around with input := lineOf words }

/-- Words and the line of them are read as the same condition. -/
theorem Request.parse_query_piped {request : Request} (hwords : request.words ≠ []) (settings : Settings) (input : Text) :
    Query.parse settings (request.piped.query (lineOf request.words)) =
      Query.parse settings (request.query input) := by
  have hblank : Text.Blank ['\n'] := fun c hc => by
    rw [List.mem_singleton.mp hc]
    decide
  have hmargins := Query.parse_margins settings (List.forall_mem_nil _ : Text.Blank []) hblank
    (Text.joinWith [' '] request.words)
  have hquery : request.query input = Text.joinWith [' '] request.words := if_neg (by simpa using hwords)
  rw [hquery, ← hmargins]
  rfl

/-- The command that reads the line of some words shows what the command with these words shows. -/
theorem Request.run_piped {request : Request} (hwords : request.words ≠ []) (around : Surroundings V F) :
    (request.piped.run (around.fed request.words)).map Outcome.shown = (request.run around).map Outcome.shown ∧
      (request.verbose = false → request.piped.run (around.fed request.words) = request.run around) := by
  cases hpath : request.settingsPath? (F := F) with
  | error crash =>
    have hpiped : request.piped.settingsPath? (F := F) = .error crash := hpath
    rw [run_of_crash hpath, run_of_crash hpiped]
    exact ⟨rfl, fun _ => rfl⟩
  | ok path =>
    have hpiped : request.piped.settingsPath? (F := F) = .ok path := hpath
    cases hload : around.settings path with
    | error fault =>
      have hfed : (around.fed request.words).settings path = .error fault := hload
      by_cases hfault : ∃ f, fault = .file f
      · obtain ⟨f, rfl⟩ := hfault
        rw [run_of_fileFault hpath hload, run_of_fileFault hpiped hfed]
        exact ⟨rfl, fun _ => rfl⟩
      · have hfault := not_exists.mp hfault
        rw [run_of_loadFault hpath hload hfault, run_of_loadFault hpiped hfed hfault]
        exact ⟨rfl, fun _ => rfl⟩
    | ok settings =>
      have hfed : (around.fed request.words).settings path = .ok settings := hload
      have hparse := Query.parse_eq settings (request.query around.input)
      have hpipedParse := (parse_query_piped hwords settings around.input).trans hparse
      rw [run_of_settings hpath hload hparse, run_of_settings hpiped hfed hpipedParse]
      refine ⟨rfl, fun hverbose => ?_⟩
      have hpipedVerbose : request.piped.verbose = false := hverbose
      rw [hverbose, hpipedVerbose]
      rfl

/-- Blanks at the ends of a query do not matter. So of two command lines that ask for the same, the one with the words of
    a query and the other with the line of them for its input, the outcomes are the same but for the notices. -/
theorem margins_irrelevant :
    (∀ (settings : Settings) (before after query : Text), Text.Blank before → Text.Blank after →
        Query.parse settings (before ++ query ++ after) = Query.parse settings query) ∧
      ∀ (V F : Type) (given piped : List Text) (asked : Request) (around : Surroundings V F), request given = .ok asked →
        asked.words ≠ [] → request piped = .ok asked.piped →
          (∀ settings, Query.parse settings (asked.piped.query (lineOf asked.words)) =
              Query.parse settings (asked.query around.input)) ∧
            (run piped (around.fed asked.words)).map Outcome.shown = (run given around).map Outcome.shown ∧
            (asked.verbose = false → run piped (around.fed asked.words) = run given around) := by
  refine ⟨fun settings before after query hbefore hafter => Query.parse_margins settings hbefore hafter query, ?_⟩
  intro V F given piped asked around hgiven hwords hpiped
  rw [run_of_request hgiven, run_of_request hpiped]
  exact ⟨fun settings => asked.parse_query_piped hwords settings around.input, asked.run_piped hwords around⟩

/-- The reader for which the empty document alone is one. It has no value. -/
def emptyReader : DocumentReader Unit Empty where
  read contents :=
    match contents.fault with
    | some fault => .error (.encoding fault)
    | none => if contents.portions.isEmpty then .ok () else .error (.invalid [])
  form _ := .null
  display _ := .ok "None".toList

/-- Surroundings with one thing at every path, and an input. -/
def Surroundings.holding (file : Settings.FileState) (input : Text) : Surroundings Unit Empty where
  home := []
  files _ := file
  reader := emptyReader
  input := input
  console := .plain

/-- A quote without a partner, an OR at the end and a bracket, with blanks around them; and two words with `--json`. -/
theorem margins_irrelevant_stray :
    (Text.Blank ['\n', ' '] ∧ Text.Blank ['\u3000'] ∧
        Query.parse {} (['\n', ' '] ++ "-\"a (b or".toList ++ ['\u3000']) = Query.parse {} "-\"a (b or".toList) ∧
      request ["--json".toList, ['a'], ['b']] = .ok { words := [['a'], ['b']], json := true } ∧
      request ["--json".toList] = .ok { json := true } ∧
      run ["--json".toList] (.holding .missing "a b\n".toList) =
        run ["--json".toList, ['a'], ['b']] (.holding .missing []) := by
  have hbefore : Text.Blank ['\n', ' '] := List.all_iff_forall_prop.mp (by decide)
  have hafter : Text.Blank ['\u3000'] := List.all_iff_forall_prop.mp (by decide)
  have hgiven : request ["--json".toList, ['a'], ['b']] = .ok { words := [['a'], ['b']], json := true } := by
    have hkinds : classifyAll ["--json".toList, ['a'], ['b']] =
        .ok [.option .json "--json".toList none, .word ['a'], .word ['b']] := rfl
    have hprogress : understand {} [.option .json "--json".toList none, .word ['a'], .word ['b']] =
        .ok { request := { words := [['a'], ['b']], json := true }, hasWords := true } := by
      simp [understand, Request.withAll, Request.with, bind, Except.bind, pure, Except.pure, leadingWords, afterWords,
        wordText?]
      rfl
    exact request_of_kinds hkinds hprogress rfl
  have hpiped : request ["--json".toList] = .ok { json := true } := by
    have hkinds : classifyAll ["--json".toList] = .ok [.option .json "--json".toList none] := rfl
    have hprogress : understand {} [.option .json "--json".toList none] = .ok { request := { json := true } } := by
      simp [understand, Request.withAll, Request.with, bind, Except.bind, pure, Except.pure]
    exact request_of_kinds hkinds hprogress rfl
  refine ⟨⟨hbefore, hafter, margins_irrelevant.1 {} _ _ _ hbefore hafter⟩, hgiven, hpiped, ?_⟩
  exact (margins_irrelevant.2 _ _ _ _ _ (.holding .missing []) hgiven (by decide) hpiped).2.2 rfl

end SearchQuery.CommandLine
