import ShellSurvey.Command.Run
import ShellSurvey.Proofs.Facts
import ShellSurvey.Proofs.Survey.Session
import ShellSurvey.Proofs.Volume.Listings

/-!
# The report of a survey

A survey of several files runs in one session and reports every file, whether or not it fails. The
report has one entry for each file, and an entry depends on its file alone: `Progress.After` says
what the state of a survey is after some files, and every file keeps it
(`Progress.After.surveyFile`). The entries are exact data, so the report is read back from what is
written, and the facts of a file from its entry.

A command line that asks for a report and passes all checks is a `JsonRequest`. What it does is
told by the files that its paths expand to (`report_of_request`), unless an output cannot be opened
or the system does not tell about an entry of a directory. Each of the files can be asked for alone,
with the same entry.
-/

namespace ShellSurvey.Command

open Journal (Line)

variable {world : World} {words : List String} {settings : ExtractionSettings} {path : Path}
  {session : Session}

/-! ### Entries -/

/-- The entry of the file at a path, surveyed alone. -/
def entryOf (world : World) (settings : ExtractionSettings) (path : Path) : Value :=
  entry path.text (attempt world settings path {}).result

/-- Whether an entry is that of a failure. -/
def hasError (value : Value) : Bool :=
  (value.field? "error").isSome

/-- What was surveyed before has no influence on the result for a file. -/
theorem attempt_result (world : World) (settings : ExtractionSettings) (path : Path)
    (h : session.Valid Grammar.standard) :
    (attempt world settings path session).result = (attempt world settings path {}).result := by
  rw [attempt, attempt]
  cases world.trouble path.text with
  | some trouble => rfl
  | none =>
    simp only [Survey.runFile]
    cases Survey.readScript settings world.volume path with
    | error failure => rfl
    | ok content =>
      simp only [Survey.run_result h, Survey.run_result (Session.valid_fresh Grammar.standard)]

/-- The session stays valid, whether or not the survey of a file fails. -/
theorem valid_attempt (world : World) (settings : ExtractionSettings) (path : Path)
    (h : session.Valid Grammar.standard) :
    (attempt world settings path session).session.Valid Grammar.standard := by
  rw [attempt]
  cases world.trouble path.text with
  | some trouble => exact h
  | none =>
    simp only [Survey.runFile]
    cases Survey.readScript settings world.volume path with
    | error failure => exact h
    | ok content => exact Survey.valid_run h _ _ _

theorem hasError_entry_ok (file : String) (facts : Facts) :
    hasError (entry file (.ok facts)) = false :=
  rfl

theorem hasError_entry_error (file : String) (failure : Survey.Failure) :
    hasError (entry file (.error failure)) = true :=
  rfl

/-- An entry holds the facts of the file if the survey gives them, so that they are read back from
it, and else the file and an error. -/
theorem entryOf_cases (world : World) (settings : ExtractionSettings) (path : Path) :
    (∃ facts, world.trouble path.text = none ∧
      (Survey.runFile Grammar.standard settings world.volume path {}).result = .ok facts ∧
      entryOf world settings path = facts.toValue ∧
      Facts.ofValue? (entryOf world settings path) = some facts) ∨
    ((world.trouble path.text = none → ∃ failure,
        (Survey.runFile Grammar.standard settings world.volume path {}).result = .error failure) ∧
      ∃ error, entryOf world settings path =
        .object [("file", .text path.text), ("error", error)]) := by
  rw [entryOf, attempt]
  cases world.trouble path.text with
  | some trouble => exact .inr ⟨fun hnone => (nomatch hnone), _, rfl⟩
  | none =>
    dsimp only
    cases (Survey.runFile Grammar.standard settings world.volume path {}).result with
    | ok facts => exact .inl ⟨facts, rfl, rfl, rfl, Facts.faithful.read facts⟩
    | error failure => exact .inr ⟨fun _ => ⟨failure, rfl⟩, _, rfl⟩

/-- Why a file has no facts: trouble, a file that cannot be read or is too large, or one that is no
script. -/
inductive Fails (path : Path) : Survey.Failure → Prop
  | trouble (trouble : Survey.Trouble) : Fails path (.trouble trouble)
  | file (error : FileError) (text : String) : Fails path (.file error text)
  | tooLarge (size limit : Int) : Fails path (.fault (.fileTooLarge path.text size limit))
  | unsupported : ¬Grammar.isScriptPath path → Fails path (.fault (.unsupportedFile path.text))

/-- A file that cannot be read fails in one of the foreseen ways. -/
theorem fails_of_readScript {failure : Survey.Failure} {volume : Volume}
    (h : Survey.readScript settings volume path = .error failure) : Fails path failure := by
  rw [Survey.readScript] at h
  split at h
  · cases h
    exact .file _ _
  · cases h
    exact .file _ _
  · cases h
    exact .file _ _
  · dsimp only at h
    split_ifs at h with hsize hscript
    · cases h
      exact .tooLarge _ _
    · cases h
      -- A name that is one of a script is enough.
      refine .unsupported fun hname => hscript ?_
      rw [Grammar.isScript, hname, Bool.true_or]

/-- A survey with the standard grammar fails in one of the foreseen ways or by trouble. -/
theorem fails_of_attempt {failure : Survey.Failure}
    (h : (attempt world settings path {}).result = .error failure) : Fails path failure := by
  rw [attempt] at h
  cases htrouble : world.trouble path.text with
  | some trouble =>
    rw [htrouble] at h
    cases h
    exact .trouble trouble
  | none =>
    rw [htrouble] at h
    simp only [Survey.runFile] at h
    cases hread : Survey.readScript settings world.volume path with
    | error other =>
      rw [hread] at h
      cases h
      exact fails_of_readScript hread
    | ok content =>
      -- With the standard grammar, a script that is read has facts.
      rw [hread] at h
      simp only [Survey.run_standard .fresh, reduceCtorEq] at h

/-- A file that is a script by its name is not reported as unsupported. -/
theorem not_unsupported (hscript : Grammar.isScriptPath path) {error : Value}
    (h : (entryOf world settings path).field? "error" = some error) :
    error.field? "error" ≠ some (.text "GRAMMAR_UNSUPPORTED_FILE") := by
  have hcode : ∀ code, code ≠ "GRAMMAR_UNSUPPORTED_FILE" →
      some (Value.text code) ≠ some (.text "GRAMMAR_UNSUPPORTED_FILE") := fun code hne heq =>
    hne (Value.text.inj (Option.some.inj heq))
  rw [entryOf] at h
  cases hresult : (attempt world settings path {}).result with
  | ok facts =>
    rw [hresult] at h
    cases h
  | error failure =>
    rw [hresult] at h
    obtain rfl : (report path.text failure).error = error := Option.some.inj h
    cases fails_of_attempt hresult with
    | trouble trouble =>
      cases trouble with
      | unreadable text => exact fun h => nomatch h
      | unforeseen kind text => exact hcode "INTERNAL_ERROR" (by decide)
    | file error text => exact fun h => nomatch h
    | tooLarge size limit => exact hcode "GRAMMAR_FILE_TOO_LARGE" (by decide)
    | unsupported hnot => exact absurd hscript hnot

theorem exact_fault {fault : Fault} (h : (Value.object fault.details).Exact) :
    fault.toValue.Exact :=
  exact_object (by simp [Fields.names]) ⟨.int _, .text _, .text _, .bool _, h⟩

/-- The error of every failure is exact data. -/
theorem exact_report {failure : Survey.Failure} (h : Fails path failure) :
    (report path.text failure).error.Exact := by
  cases h with
  | trouble trouble =>
    cases trouble with
    | unreadable text => exact exact_object (by simp [Fields.names]) (.text _)
    | unforeseen kind text =>
      exact exact_fault (exact_object (by simp [Cause.fault, Fields.names]) ⟨.text _, .text _⟩)
  | file error text => exact exact_object (by simp [Fields.names]) (.text _)
  | tooLarge size limit =>
    exact exact_fault
      (exact_object (by simp [Cause.fault, Fields.names]) ⟨.text _, .int _, .int _⟩)
  | unsupported hnot =>
    exact exact_fault (exact_object (by simp [Cause.fault, Fields.names]) (.text _))

/-- Entries are exact data. -/
theorem exact_entryOf (world : World) (settings : ExtractionSettings) (path : Path) :
    (entryOf world settings path).Exact := by
  rw [entryOf]
  cases hresult : (attempt world settings path {}).result with
  | ok facts => exact Facts.faithful.exact facts
  | error failure =>
    exact exact_object (by simp [Fields.names]) ⟨.text _, exact_report (fails_of_attempt hresult)⟩

/-! ### The files of a survey -/

/-- The events of surveying files one after the other in a session. A failure is told behind the
events of its file. -/
def eventsOf (world : World) (settings : ExtractionSettings) : List Path → Session → List Event
  | [], _ => []
  | path :: rest, session =>
    let step := attempt world settings path session
    let failed :=
      match step.result with
      | .ok _ => []
      | .error failure => world.failureEvents path.text failure
    step.events ++ failed ++ eventsOf world settings rest step.session

/-- The state of a survey after some files, from a state before them. -/
structure Progress.After (world : World) (settings : ExtractionSettings) (journal : Journal)
    (before : Progress) (paths : List Path) (progress : Progress) : Prop where
  session : progress.session.Valid Grammar.standard
  entries : progress.entries = before.entries ++ paths.map (entryOf world settings)
  failed : progress.failed =
    (before.failed || (paths.map (entryOf world settings)).any hasError)
  /-- Nothing but events is told before the report. -/
  lines : progress.lines = before.lines ++
    journal.tellAll world.stamp (eventsOf world settings paths before.session)

theorem tellAll_append (journal : Journal) (stamp : String) (events more : List Event) :
    journal.tellAll stamp (events ++ more) =
      journal.tellAll stamp events ++ journal.tellAll stamp more :=
  List.flatMap_append

/-- A file adds its entry and its events, whatever the files before it were. -/
theorem Progress.after_surveyFile (world : World) (settings : ExtractionSettings)
    (journal : Journal) {before : Progress} (h : before.session.Valid Grammar.standard)
    (path : Path) :
    Progress.After world settings journal before [path]
        (Command.surveyFile world settings journal true before path) ∧
      (Command.surveyFile world settings journal true before path).session =
        (attempt world settings path before.session).session := by
  -- The session may have been used before, but the result is that of a fresh one.
  have hresult := attempt_result world settings path h
  have hvalid := valid_attempt world settings path h
  have hentry : entryOf world settings path =
      entry path.text (attempt world settings path before.session).result := by
    rw [entryOf, hresult]
  rw [Command.surveyFile]
  cases hstep : (attempt world settings path before.session).result with
  | ok facts =>
    rw [hstep] at hentry
    refine ⟨⟨hvalid, ?_, ?_, ?_⟩, rfl⟩
    · rw [List.map_singleton, hentry]
      rfl
    · simp [hentry, hasError_entry_ok]
    · simp [eventsOf, hstep]
  | error failure =>
    rw [hstep] at hentry
    refine ⟨⟨hvalid, ?_, ?_, ?_⟩, rfl⟩
    · rw [List.map_singleton, hentry]
      rfl
    · simp [hentry, hasError_entry_error]
    · simp [eventsOf, hstep, tellAll_append]

/-- What files do to the state of a survey. -/
theorem Progress.after_foldl (world : World) (settings : ExtractionSettings) (journal : Journal)
    {before : Progress} (h : before.session.Valid Grammar.standard) (paths : List Path) :
    Progress.After world settings journal before paths
      (paths.foldl (Command.surveyFile world settings journal true) before) := by
  induction paths generalizing before with
  | nil => exact ⟨h, by simp, by simp, by simp [eventsOf, Journal.tellAll]⟩
  | cons path rest ih =>
    obtain ⟨hfirst, hsession⟩ := after_surveyFile world settings journal h path
    have hrest := ih hfirst.session
    refine ⟨hrest.session, ?_, ?_, ?_⟩
    · rw [List.foldl_cons, hrest.entries, hfirst.entries, List.append_assoc, ← List.map_append]
      rfl
    · rw [List.foldl_cons, hrest.failed, hfirst.failed, Bool.or_assoc, ← List.any_append,
        ← List.map_append]
      rfl
    · rw [List.foldl_cons, hrest.lines, hfirst.lines, hsession, List.append_assoc,
        ← tellAll_append]
      simp [eventsOf]

/-- The report of files: their events are told, then their entries are written so that they can be
read back, and the exit code tells whether one of them is that of a failure. -/
structure Reports (world : World) (settings : Settings) (files : List Path) (outcome : Outcome) :
    Prop where
  lines : outcome.lines =
    (world.journal settings).tellAll world.stamp (eventsOf world settings.extraction files {}) ++
      [out (Json.page (.list (files.map (entryOf world settings.extraction))) ++ "\n")]
  read : Json.parse? (Json.page (.list (files.map (entryOf world settings.extraction))) ++
    "\n").toList = some (.list (files.map (entryOf world settings.extraction)))
  ending : outcome.ending =
    .exit (if (files.map (entryOf world settings.extraction)).any hasError then 1 else 0)

section SurveyAll

variable {config : Settings} {paths : List Path}

/-- Nothing is surveyed if an output cannot be opened. -/
theorem surveyAll_of_refusal {refusal : Journal.Refusal} (json : Bool)
    (h : (world.opening.opened config.logging).refusal = some refusal) :
    surveyAll world config json paths = { ending := .escape (.output refusal) } := by
  rw [surveyAll, h]

theorem after_survey (world : World) (config : Settings) (paths : List Path) :
    Progress.After world config.extraction (world.journal config) {} paths
      (paths.foldl (surveyFile world config.extraction (world.journal config) true) {}) :=
  have hfresh : (({} : Progress).session).Valid Grammar.standard :=
    Session.valid_fresh Grammar.standard
  Progress.after_foldl world config.extraction (world.journal config) hfresh paths

/-- The events of the files that were listed are told where the listing stops, and no report is
written. -/
theorem surveyAll_of_stop {stop : Path} (h : (world.opening.opened config.logging).refusal = none)
    (hstop : (world.volume.expand paths).stop = some stop) :
    surveyAll world config true paths =
      { lines := (world.journal config).tellAll world.stamp
          (eventsOf world config.extraction (world.volume.expand paths).files {})
        ending := .escape (.file .denied stop.text) } := by
  have hlines := (after_survey world config (world.volume.expand paths).files).lines
  rw [surveyAll, h]
  simp only [hstop, hlines]
  rfl

/-- All files are reported if all outputs can be opened and all entries can be seen. -/
theorem reports_surveyAll (h : (world.opening.opened config.logging).refusal = none)
    (hstop : (world.volume.expand paths).stop = none) :
    Reports world config (world.volume.expand paths).files
      (surveyAll world config true paths) := by
  have hafter := after_survey world config (world.volume.expand paths).files
  have hexact : (Value.list ((world.volume.expand paths).files.map
      (entryOf world config.extraction))).Exact := by
    refine .list fun item hitem => ?_
    obtain ⟨path, -, rfl⟩ := List.mem_map.mp hitem
    exact exact_entryOf world config.extraction path
  have hblanks : ∀ c ∈ ['\n'], Json.isSpace c := by
    intro c hc
    rw [List.mem_singleton.mp hc]
    rfl
  have hread := Json.parse?_page hexact hblanks
  rw [surveyAll, h]
  simp only [hstop, hafter.entries, hafter.failed, hafter.lines]
  refine ⟨rfl, ?_, rfl⟩
  rw [String.toList_append]
  exact hread

end SurveyAll

/-! ### Command lines -/

/-- A command line that asks for the report of files and passes all checks. -/
structure JsonRequest (world : World) (words : List String) where
  /-- The words as the program reads them. -/
  program : Reading
  /-- The words behind the command. -/
  rest : List String
  /-- These words as the command reads them. -/
  reading : Reading
  /-- The settings that are loaded. -/
  loaded : Settings
  program_eq : read programOptions false words = .ok program
  program_eager : program.eager? = none
  command : program.arguments = "extract" :: rest
  reading_eq : read surveyOptions true rest = .ok reading
  reading_eager : reading.eager? = none
  json : reading.has .json = true
  config : (reading.value? .config).bind (configProblem? world) = none
  arguments : pathsProblem? world reading.arguments = none
  loaded_eq : loadSettings world ((reading.value? .config).map Path.ofString) = .ok loaded

namespace JsonRequest

/-- The paths that are asked for. -/
def paths (request : JsonRequest world words) : List Path :=
  request.reading.arguments.map Path.ofString

/-- What the paths expand to. -/
def listing (request : JsonRequest world words) : Volume.Listing :=
  world.volume.expand request.paths

/-- The files that are asked for. -/
def files (request : JsonRequest world words) : List Path :=
  request.listing.files

/-- The settings, with all events told if the command line says so. -/
def effective (request : JsonRequest world words) : Settings :=
  if request.program.has .verbose then tellingAll request.loaded else request.loaded

/-- The command line that asks for one file alone, all else being equal. -/
def alone (request : JsonRequest world words) (path : Path) : List String :=
  (if request.program.has .verbose then ["--verbose"] else []) ++ "extract" :: "--json" ::
    (match request.reading.value? .config with
    | some value => ["--config", value]
    | none => []) ++ ["--", path.text]

/-- A request that passes all checks is a survey of its paths. -/
theorem run_eq (request : JsonRequest world words) :
    run world words = surveyAll world request.effective true request.paths := by
  have hwords : words.isEmpty = false := by
    cases words with
    | nil =>
      have hprogram : request.program = {} := (Except.ok.inj request.program_eq).symm
      have hcommand := request.command
      rw [hprogram] at hcommand
      cases hcommand
    | cons word rest => rfl
  have hsurvey : survey world (request.program.has .verbose) request.rest =
      surveyAll world request.effective true request.paths := by
    rw [survey, request.reading_eq]
    simp only [request.reading_eager, request.config, request.arguments, request.loaded_eq,
      request.json, Option.isSome_none, Option.or_none, Bool.false_eq_true, if_false, paths,
      effective]
  rw [run, hwords, if_neg Bool.false_ne_true, request.program_eq]
  simp only [request.program_eager, request.command, hsurvey, beq_self_eq_true, if_true]

/-! ### One file alone -/

/-- A path that passes the checks of the command line is there. -/
theorem exists_look_of_mem_paths (request : JsonRequest world words) (h : world.volume.Proper)
    (hpath : path ∈ request.paths) : ∃ entry, world.volume.look path = .ok entry := by
  obtain ⟨text, htext, rfl⟩ := List.mem_map.mp hpath
  have hproblem := request.arguments
  rw [pathsProblem?] at hproblem
  split_ifs at hproblem with hempty
  have hfound := List.findSome?_eq_none_iff.mp hproblem text htext
  rw [pathProblem?] at hfound
  cases hlook : world.volume.lookText text.toList with
  | error error =>
    rw [hlook] at hfound
    cases hfound
  | ok entry => exact ⟨entry, Volume.look_of_lookText h hlook⟩

/-- Every file that is asked for is listed for one of the paths. -/
theorem exists_path_of_mem_files (request : JsonRequest world words)
    (hpath : path ∈ request.files) :
    ∃ given ∈ request.paths, path ∈ (world.volume.list given).files := by
  have hexpands := world.volume.expands_expand request.paths
  rw [files, listing] at hpath
  generalize world.volume.expand request.paths = listing at hexpands hpath
  generalize request.paths = paths at hexpands ⊢
  cases hexpands with
  | all _ => exact List.mem_flatMap.mp hpath
  | upTo _ _ =>
    rcases List.mem_append.mp hpath with hpath | hpath
    · obtain ⟨given, hgiven, hlisted⟩ := List.mem_flatMap.mp hpath
      exact ⟨given, List.mem_append_left _ hgiven, hlisted⟩
    · exact ⟨_, List.mem_append_right _ List.mem_cons_self, hpath⟩

/-- Every file that is asked for is there, and its path can be written. -/
theorem file_of_mem_files (request : JsonRequest world words) (h : world.volume.Proper)
    (hpath : path ∈ request.files) :
    (∃ content, world.volume.look path = .ok (.file content)) ∧ path.parts ≠ [] ∧
      ∀ part ∈ path.parts, Path.IsName part := by
  obtain ⟨given, hgiven, hscript⟩ := request.exists_path_of_mem_files hpath
  obtain ⟨entry, hentry⟩ := request.exists_look_of_mem_paths h hgiven
  obtain ⟨content, hcontent⟩ := Volume.exists_file_of_mem_list h hentry hscript
  obtain ⟨text, -, rfl⟩ := List.mem_map.mp hgiven
  refine ⟨⟨content, hcontent⟩, Volume.parts_ne_nil_of_file h hcontent, ?_⟩
  exact Volume.isName_of_mem_list h (fun part hpart => Path.isName_of_mem_ofString hpart) hentry
    hscript

/-- Asking for one of the files alone passes all checks too, if the file may be read. -/
def forFile (request : JsonRequest world words) (h : world.volume.Proper)
    (hpath : path ∈ request.files) (hread : world.mayRead path.text = true) :
    JsonRequest world (request.alone path) where
  program :=
    { uses := if request.program.has .verbose then [(.verbose, "")] else []
      arguments := "extract" :: "--json" ::
        (match request.reading.value? .config with
        | some value => ["--config", value]
        | none => []) ++ ["--", path.text] }
  rest := "--json" ::
    (match request.reading.value? .config with
    | some value => ["--config", value]
    | none => []) ++ ["--", path.text]
  reading :=
    { uses := (.json, "") ::
        (match request.reading.value? .config with
        | some value => [(.config, value)]
        | none => [])
      arguments := [path.text] }
  loaded := request.loaded
  program_eq := by
    rw [alone]
    split_ifs
    · rfl
    · rfl
  program_eager := by
    split_ifs
    · rfl
    · rfl
  command := rfl
  reading_eq := by
    cases request.reading.value? .config with
    | none => rfl
    | some value => rfl
  reading_eager := by
    cases request.reading.value? .config with
    | none => rfl
    | some value => rfl
  json := rfl
  config := by
    have hconfig := request.config
    cases hvalue : request.reading.value? .config with
    | none => rfl
    | some value =>
      rw [hvalue] at hconfig
      exact hconfig
  arguments := by
    -- The text of a path that was looked up part by part is looked up as it is written.
    obtain ⟨⟨content, hcontent⟩, hne, hnames⟩ := request.file_of_mem_files h hpath
    have hlook := Volume.lookText_of_look h hne hnames hcontent
    simp [pathsProblem?, pathProblem?, hlook, hread]
  loaded_eq := by
    have hloaded := request.loaded_eq
    cases hvalue : request.reading.value? .config with
    | none =>
      rw [hvalue] at hloaded
      exact hloaded
    | some value =>
      rw [hvalue] at hloaded
      exact hloaded

/-- The settings for one file alone are those for all. -/
theorem effective_forFile (request : JsonRequest world words) (h : world.volume.Proper)
    (hpath : path ∈ request.files) (hread : world.mayRead path.text = true) :
    (request.forFile h hpath hread).effective = request.effective := by
  have hverbose : ∀ (flag : Bool) (arguments : List String),
      Reading.has { uses := if flag then [(.verbose, "")] else [], arguments } .verbose = flag := by
    intro flag arguments
    cases flag <;> rfl
  rw [effective, effective, forFile, hverbose]

/-- One file that is asked for alone expands to itself. -/
theorem listing_forFile (request : JsonRequest world words) (h : world.volume.Proper)
    (hpath : path ∈ request.files) (hread : world.mayRead path.text = true) :
    (request.forFile h hpath hread).listing = { files := [path] } := by
  obtain ⟨⟨content, hcontent⟩, -, hnames⟩ := request.file_of_mem_files h hpath
  have hpaths : (request.forFile h hpath hread).paths = [path] :=
    congrArg (fun p => [p]) (Path.ofString_text hnames)
  rw [listing, hpaths, Volume.expand, Volume.list_of_file hcontent]
  rfl

end JsonRequest

/-- An empty script. -/
def emptyScript : Entry :=
  .file ⟨[], ⟨"program", true, false, none, ⟨0, 0, ⟨0, 0⟩, ⟨0, 0⟩⟩, []⟩⟩

/-- The entries of a directory with two scripts and a file that is none. -/
def mixedEntries : List (List Char × Entry) :=
  [("a.sh".toList, emptyScript), ("b.sh".toList, emptyScript), ("notes".toList, emptyScript)]

/-- A volume with the directory. -/
def mixedVolume : Volume where
  top := .directory [(['d'], .directory mixedEntries)]
  here := []

/-- A world in which one of the scripts cannot be read. -/
def deniedWorld : World where
  volume := mixedVolume
  directory := "/"
  home := "/"
  common := ⟨"", none⟩
  stamp := ""
  fresh := ""
  trouble := fun file => if file = "d/b.sh" then some (.unreadable "denied") else none

theorem proper_mixedVolume : mixedVolume.Proper := by
  have hname : ∀ name ∈ [['d'], "a.sh".toList, "b.sh".toList, "notes".toList],
      Entry.IsFileName name := by
    intro name hmem
    have hchecked : ∀ name ∈ [['d'], "a.sh".toList, "b.sh".toList, "notes".toList],
        name ≠ [] ∧ name ≠ ['.'] ∧ '/' ∉ name ∧ name ≠ ['.', '.'] := by decide
    obtain ⟨hnil, hdot, hslash, hup⟩ := hchecked name hmem
    exact ⟨⟨hnil, hdot, hslash⟩, hup⟩
  have hentries : (Entry.directory mixedEntries).Proper := by
    refine .directory (by decide) (fun child hchild => ?_) (fun child hchild => ?_)
    · have hmem := List.mem_map_of_mem (f := Prod.fst) hchild
      exact hname _ (List.mem_cons_of_mem _ hmem)
    · have hempty : child.2 = emptyScript := by
        simp only [mixedEntries, List.mem_cons, List.not_mem_nil, or_false] at hchild
        rcases hchild with rfl | rfl | rfl
        · rfl
        · rfl
        · rfl
      rw [hempty]
      exact .file _
  refine ⟨.directory (by decide) (fun child hchild => ?_) (fun child hchild => ?_), _, rfl⟩
  · rw [List.mem_singleton.mp hchild]
    exact hname _ List.mem_cons_self
  · rw [List.mem_singleton.mp hchild]
    exact hentries

theorem list_mixedVolume :
    mixedVolume.list ⟨.here, [['d']]⟩ =
      { files := [⟨.here, [['d'], "a.sh".toList]⟩, ⟨.here, [['d'], "b.sh".toList]⟩] } := by
  have hlook : mixedVolume.look ⟨.here, [['d']]⟩ = .ok (.directory mixedEntries) := rfl
  have hways : (Entry.directory mixedEntries).leaves.mergeSort Volume.wayLe =
      [["a.sh".toList], ["b.sh".toList], ["notes".toList]] :=
    List.mergeSort_of_pairwise (by decide)
  rw [Volume.list_of_directory hlook, Volume.leavesAt, hways]
  decide

/-- The request for the directory. -/
def deniedRequest : JsonRequest deniedWorld ["extract", "--json", "d"] where
  program := { arguments := ["extract", "--json", "d"] }
  rest := ["--json", "d"]
  reading := { uses := [(.json, "")], arguments := ["d"] }
  loaded := {}
  program_eq := rfl
  program_eager := rfl
  command := rfl
  reading_eq := rfl
  reading_eager := rfl
  json := rfl
  config := rfl
  arguments := rfl
  loaded_eq := rfl

/-- A world with a setting for an output that cannot be opened. -/
def refusedWorld : World :=
  { deniedWorld with
    environment :=
      [("SHELLFACTS__LOGGING", "\x7b\"outputs\": [\x7b\"destination\": \"/\"\x7d]\x7d")]
    opening := fun _ destination =>
      some ⟨"IsADirectoryError", FileError.isDirectory.message destination⟩ }

end ShellSurvey.Command
