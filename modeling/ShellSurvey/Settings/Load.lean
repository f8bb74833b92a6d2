import ShellSurvey.Fault
import ShellSurvey.Settings.Environment
import ShellSurvey.Settings.Validate
import ShellSurvey.Value.Yaml.Document

/-!
# Loading settings

Settings come from a file for all projects, a file of the project, the environment, and what the
caller gives, each of these going over those before it. Then everything is checked at once. What is
accepted is written as data and checked a second time.

How the text of a file and the variables of an environment are understood is left to `Readers`;
the standard ones read YAML and variables with nested names.
-/

namespace ShellSurvey.Settings

/-- A settings file: its path and its text, if it is there. -/
structure SettingsFile where
  /-- The path. -/
  path : String
  /-- The text. -/
  text : Option (List Char)

/-- Why settings cannot be loaded. -/
inductive LoadError where
  /-- Something that is reported as a fault. -/
  | cause (reason : Cause)
  /-- A variable for that record is not readable. -/
  | environment (record : String)
  /-- A path starts at a home directory that is not known. -/
  | homeless
  /-- Settings that were accepted are refused when they are checked again. -/
  | refusedAgain (first : Issue) (more : List Issue)

/-- The message for a path at a home directory that is not known. -/
def homelessMessage : String := "Could not determine home directory."

/-- The message of an error. -/
def LoadError.message : LoadError → String
  | .cause reason => reason.fault.text
  | .environment record =>
    "error parsing value for field \"" ++ record ++ "\" from source \"EnvSettingsSource\""
  | .homeless => homelessMessage
  | .refusedAgain _ more => Text.Numeral.natText (more.length + 1) ++ " validation error(s)"

/-- The reason for a document that cannot be read. -/
def unreadable : String := "the document is not well formed"

/-- The reason for a document that is not a mapping. -/
def notMapping : String := "top level must be a mapping"

/-- How what settings are written in is read. -/
structure Readers where
  /-- The value of a document, if it is well formed. -/
  document : List Char → Option Value
  /-- The settings in an environment; the name of the record that is not readable otherwise. -/
  environment : Environment → Except String Fields

/-- The readers at hand. -/
def Readers.standard : Readers where
  document := Yaml.parse?
  environment := ofEnvironment

/-- The settings in a file. A file that is missing or says nothing has none. -/
def SettingsFile.read (file : SettingsFile) (readers : Readers) : Except Cause Fields :=
  match file.text with
  | none => .ok []
  | some text =>
    match readers.document text with
    | none => .error (.configParse file.path unreadable)
    | some value =>
      if value.isFalsy then .ok []
      else
        match value with
        | .object fields => .ok fields
        | _ => .error (.configParse file.path notMapping)

/-- Where settings come from. -/
structure Sources where
  /-- The home directories. -/
  home : Homes
  /-- The file for all projects. -/
  common : SettingsFile
  /-- The file of the project. -/
  project : SettingsFile
  /-- Whether the file of the project was asked for and must be there. -/
  required : Bool := false
  /-- The environment. -/
  environment : Environment := []
  /-- What the caller gives. -/
  given : Fields := []
  /-- How files and environment are read. -/
  readers : Readers := .standard

/-- The settings in the files, those of the project over the common ones. -/
def readFiles (sources : Sources) : Except Cause Fields :=
  if sources.required && sources.project.text.isNone then
    .error (.configMissing sources.project.path)
  else
    match sources.project.read sources.readers with
    | .error cause => .error cause
    | .ok project =>
      match sources.common.read sources.readers with
      | .error cause => .error cause
      | .ok common => .ok (common.overlay project)

/-- The fault of an issue. -/
def Issue.cause (issue : Issue) : Cause :=
  .configInvalid (".".intercalate (issue.place.map Segment.text)) issue.input
    issue.problem.message

/-- The settings that a check gives; of several issues the first is reported. -/
def settled : Checked Settings → Except LoadError Settings
  | .valid settings => .ok settings
  | .invalid issue _ => .error (.cause issue.cause)
  | .homeless => .error .homeless

/-- The settings that the sources give, checked once. -/
def accept (sources : Sources) : Except LoadError Settings :=
  match readFiles sources with
  | .error cause => .error (.cause cause)
  | .ok files =>
    match sources.readers.environment sources.environment with
    | .error record => .error (.environment record)
    | .ok environment =>
      settled (checkClosed sources.home (files.overlay (environment.overlay sources.given)))

/-- The settings that are read back from settings written as data. What is wrong with them is not
reported as a fault. -/
def checkAgain (homes : Homes) (settings : Settings) : Except LoadError Settings :=
  match checkSettings homes settings.toValue with
  | .valid again => .ok again
  | .invalid first more => .error (.refusedAgain first more)
  | .homeless => .error .homeless

/-- Loads the settings. -/
def load (sources : Sources) : Except LoadError Settings :=
  match accept sources with
  | .error error => .error error
  | .ok settings => checkAgain sources.home settings

end ShellSurvey.Settings
