import ShellSurvey.Command.Help
import ShellSurvey.Command.Options
import ShellSurvey.Command.Table
import ShellSurvey.Journal.Basic
import ShellSurvey.Settings.Load
import ShellSurvey.Survey.Session
import ShellSurvey.Text.Utf8
import ShellSurvey.Value.Json.Writer

/-!
# The command line

`Command.run` is the whole program as a function: from what it finds in the world and the words
of its command line to the lines it writes and the way it ends.
-/

namespace ShellSurvey.Command

open Journal (Line)

/-- What the program finds in the world. -/
structure World where
  /-- The file system. -/
  volume : Volume
  /-- The text of the current directory. -/
  directory : String
  /-- The home directories. -/
  home : Settings.Homes
  /-- The settings file for all projects. -/
  common : Settings.SettingsFile
  /-- The environment. -/
  environment : Settings.Environment := []
  /-- The time. -/
  stamp : String
  /-- A fresh identifier for the run. -/
  fresh : String
  /-- What goes wrong when the file of that name is surveyed. -/
  trouble : String → Option Survey.Trouble := fun _ => none
  /-- How an unforeseen failure at the file of that name came about, line by line. -/
  account : String → String := fun _ => ""
  /-- Whether the program may read what a word names. -/
  mayRead : String → Bool := fun _ => true
  /-- What the system answers when files are opened for outputs. -/
  opening : Journal.Opening := fun _ _ => none

/-- An error that ends the program without a message of its own. -/
inductive Escape where
  /-- The settings cannot be loaded. -/
  | settings (error : Settings.LoadError)
  /-- What is at the path cannot be read. -/
  | file (error : FileError) (path : String)
  /-- The settings file is not well-formed text. -/
  | encoding (flaw : Text.Utf8.Flaw)
  /-- An output cannot be opened. -/
  | output (refusal : Journal.Refusal)

/-- How the program ends. -/
inductive Ending where
  /-- With that code. -/
  | exit (code : Nat)
  /-- By an error. -/
  | escape (error : Escape)

/-- What the program does: the lines it writes, in order, and how it ends. -/
structure Outcome where
  /-- The lines. -/
  lines : List Line := []
  /-- The end. -/
  ending : Ending := .exit 0

/-- A text for the standard output. -/
def out (text : String) : Line := ⟨"stdout", text⟩

/-- A text for the standard error output. -/
def err (text : String) : Line := ⟨"stderr", text⟩

/-! ### Surveys -/

/-- The state of a survey of several files. -/
structure Progress where
  /-- The session. -/
  session : Session := {}
  /-- The lines written so far. -/
  lines : List Line := []
  /-- The entries of the JSON report so far. -/
  entries : List Value := []
  /-- Whether a file failed. -/
  failed : Bool := false

/-- How the survey of a file that failed is reported. -/
structure Report where
  /-- The word that opens the line. -/
  word : String
  /-- The message of the line. -/
  message : String
  /-- The error in the JSON report. -/
  error : Value

/-- The report of a file that cannot be read. -/
def unreadableReport (text : String) : Report where
  word := "unreadable"
  message := text
  error := .object [("message", .text text)]

/-- The report of a failure. -/
def report (file : String) : Survey.Failure → Report
  | .fault cause =>
    { word := "skipped", message := cause.fault.message, error := cause.fault.toValue }
  | .file error path => unreadableReport (error.message path)
  | .trouble (.unreadable text) => unreadableReport text
  | .trouble (.unforeseen kind text) =>
    let cause := Cause.internal text [("file", .text file), ("type", .text kind)]
    { word := "failed", message := cause.fault.message, error := cause.fault.toValue }

/-- The events of a failure. -/
def World.failureEvents (world : World) (file : String) : Survey.Failure → List Event
  | .fault cause => [.fileSkipped file cause.fault.code.name]
  | .trouble (.unforeseen _ _) => [.extractFailed file (world.account file)]
  | .file _ _ => []
  | .trouble (.unreadable _) => []

/-- The line of a report. -/
def Report.line (r : Report) (file : String) : Line :=
  let all := r.word.toList ++ ' ' :: shown file ++ ": ".toList ++ shown r.message
  err (String.ofList ((plainLines all).flatMap (· ++ ['\n'])))

/-- The entry of a file in the JSON report. -/
def entry (file : String) : Except Survey.Failure Facts → Value
  | .ok facts => facts.toValue
  | .error failure => .object [("file", .text file), ("error", (report file failure).error)]

/-- Surveys the file at a path, unless trouble comes first. -/
def attempt (world : World) (settings : ExtractionSettings) (path : Path) (session : Session) :
    Step Survey.Failure Facts :=
  match world.trouble path.text with
  | some trouble => ⟨.error (.trouble trouble), session, []⟩
  | none => Survey.runFile Grammar.standard settings world.volume path session

/-- Surveys one file. -/
def surveyFile (world : World) (settings : ExtractionSettings) (journal : Journal) (json : Bool)
    (progress : Progress) (path : Path) : Progress :=
  let file := path.text
  let step := attempt world settings path progress.session
  let told := journal.tellAll world.stamp step.events
  let entries := progress.entries ++ (if json then [entry file step.result] else [])
  match step.result with
  | .ok facts =>
    { session := step.session
      lines := progress.lines ++ told ++ (if json then [] else [out (factsText facts)])
      entries := entries
      failed := progress.failed }
  | .error failure =>
    let r := report file failure
    { session := step.session
      lines :=
        progress.lines ++ told ++
          journal.tellAll world.stamp (world.failureEvents file failure) ++
          (if json then [] else [r.line file])
      entries := entries
      failed := true }

/-- The journal of a run with the settings. -/
def World.journal (world : World) (settings : Settings) : Journal :=
  (({} : Journal).configure world.opening settings.logging).setRun world.fresh none

/-- Surveys the files for the given paths. Nothing is surveyed if an output cannot be opened. Where
the system does not tell about an entry of a directory, the files before it are surveyed and the
program ends there, without a report. -/
def surveyAll (world : World) (settings : Settings) (json : Bool) (paths : List Path) : Outcome :=
  match (world.opening.opened settings.logging).refusal with
  | some refusal => { ending := .escape (.output refusal) }
  | none =>
    let listing := world.volume.expand paths
    let progress :=
      listing.files.foldl
        (surveyFile world settings.extraction (world.journal settings) json) {}
    match listing.stop with
    | some path => { lines := progress.lines, ending := .escape (.file .denied path.text) }
    | none =>
      { lines := progress.lines ++
          (if json then [out (Json.page (.list progress.entries) ++ "\n")] else [])
        ending := .exit (if progress.failed then 1 else 0) }

/-! ### Settings -/

/-- The text of the settings file at a path, shown by that text, if there is one. -/
def settingsText (world : World) (path : Path) (shownPath : String) :
    Except Escape (Option (List Char)) :=
  match world.volume.look path with
  | .ok (.file content) =>
    if world.mayRead shownPath then
      match Text.Utf8.decodeStrictly content.bytes with
      | .ok text => .ok (some text)
      | .error flaw => .error (.encoding flaw)
    else .error (.file .denied shownPath)
  | .ok (.directory _) => .error (.file .isDirectory shownPath)
  | .error .denied => .error (.file .denied shownPath)
  | _ => .ok none

/-- The name of the settings file of a project. -/
def settingsName : String := ".shellfacts.yaml"

/-- Loads the settings, from the given file or from that of the project. -/
def loadSettings (world : World) (file : Option Path) : Except Escape Settings :=
  let path := file.getD (Path.ofString settingsName)
  let shownPath :=
    match file with
    | some given => given.text
    | none => world.directory ++ "/" ++ settingsName
  match settingsText world path shownPath with
  | .error escape => .error escape
  | .ok text =>
    (Settings.load
      { home := world.home, common := world.common, project := ⟨shownPath, text⟩,
        required := file.isSome, environment := world.environment }).mapError .settings

/-- The settings with all events told. -/
def tellingAll (settings : Settings) : Settings :=
  { settings with logging := { settings.logging with level := .debug } }

/-! ### Commands -/

/-- An end with an error in the use of the program. -/
def misused (usage message : String) : Outcome :=
  { lines := [err (usage ++ errorLine message)], ending := .exit 2 }

/-- An end with a misuse of options. -/
def Misuse.outcome (usage : String) : Misuse → Outcome
  | .noSuchOption name => misused usage (Misuse.noSuchOption name).message
  | misuse => misused "" misuse.message

/-- What is wrong with the value of the settings option. -/
def configProblem? (world : World) (value : String) : Option String :=
  let file := "Invalid value for '--config': File " ++ quote value
  match world.volume.lookText value.toList with
  | .ok (.file _) => if world.mayRead value then none else some (file ++ " is not readable.")
  | .ok (.directory _) => some (file ++ " is a directory.")
  | _ => some (file ++ " does not exist.")

/-- What is wrong with one of the paths. -/
def pathProblem? (world : World) (value : String) : Option String :=
  let path := "Invalid value for 'PATHS...': Path " ++ quote value
  match world.volume.lookText value.toList with
  | .ok _ => if world.mayRead value then none else some (path ++ " is not readable.")
  | .error _ => some (path ++ " does not exist.")

/-- What is wrong with the paths. -/
def pathsProblem? (world : World) (paths : List String) : Option String :=
  if paths.isEmpty then some "Missing argument 'PATHS...'."
  else paths.findSome? (pathProblem? world)

/-- The survey command. -/
def survey (world : World) (verbose : Bool) (words : List String) : Outcome :=
  match read surveyOptions true words with
  | .error misuse => misuse.outcome surveyUsage
  | .ok reading =>
    if reading.eager?.isSome then { lines := [out surveyHelp] }
    else
      let config := reading.value? .config
      match (config.bind (configProblem? world)).or (pathsProblem? world reading.arguments) with
      | some problem => misused surveyUsage problem
      | none =>
        match loadSettings world (config.map Path.ofString) with
        | .error (.settings (.cause cause)) =>
          { lines := [err (errorLine cause.fault.text)], ending := .exit 1 }
        | .error escape => { ending := .escape escape }
        | .ok settings =>
          surveyAll world (if verbose then tellingAll settings else settings)
            (reading.has .json) (reading.arguments.map Path.ofString)

/-- What an option says that is acted upon before all others. -/
def eagerOutcome (opt : Opt) : Outcome :=
  { lines := [out (if opt = .version then versionText else programHelp)] }

/-- The end for a word that is no command. A word that looks like an option is read as one. -/
def unknownCommand (word : String) (rest : List String) : Outcome :=
  let unknown := misused programUsage ("No such command " ++ quote word ++ ".")
  if isOption word.toList then
    match read programOptions false (word :: rest) with
    | .error misuse => misuse.outcome programUsage
    | .ok reading =>
      match reading.eager? with
      | some opt => eagerOutcome opt
      | none => unknown
  else unknown

/-- The program. -/
def run (world : World) (words : List String) : Outcome :=
  if words.isEmpty then { lines := [err programHelp], ending := .exit 2 }
  else
    match read programOptions false words with
    | .error misuse => misuse.outcome programUsage
    | .ok reading =>
      match reading.eager?, reading.arguments with
      | some opt, _ => eagerOutcome opt
      | none, [] => misused programUsage "Missing command."
      | none, word :: rest =>
        if word == "extract" then survey world (reading.has .verbose) rest
        else unknownCommand word rest

end ShellSurvey.Command
