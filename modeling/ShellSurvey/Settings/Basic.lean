import ShellSurvey.Journal.Level
import ShellSurvey.Value.Basic

/-!
# Settings

How a survey is made and where its events go. Every setting has a default.
-/

namespace ShellSurvey

/-- How an event is written. -/
inductive Format where
  /-- One object per line. -/
  | json
  /-- Words and `key=value` pairs. -/
  | console
  deriving DecidableEq, Repr

/-- The name of a format. -/
def Format.name : Format → String
  | .json => "json"
  | .console => "console"

/-- Where events are written. -/
structure OutputSettings where
  /-- How an event is written. -/
  format : Format := .console
  /-- A standard stream, or the absolute path of a file. -/
  destination : String := "stderr"
  /-- The least level that is written; none means that of all events. -/
  level : Option Level := none
  deriving DecidableEq, Repr

/-- Which events are written, and where. -/
structure LoggingSettings where
  /-- The least level of all events. -/
  level : Level := .warning
  /-- The outputs. -/
  outputs : List OutputSettings := [{}]
  deriving DecidableEq, Repr

/-- How a script is surveyed. -/
structure ExtractionSettings where
  /-- The size of the largest file that is read, in units of 1048576 bytes. -/
  maxFileSizeMb : Nat := 5
  /-- Whether string literals are collected. -/
  includeStrings : Bool := true
  /-- Whether imports of unknown files are kept. -/
  includeDynamicImports : Bool := true
  /-- Whether functions get the comment block above them. -/
  attachDocComments : Bool := true
  deriving DecidableEq, Repr

/-- All settings. -/
structure Settings where
  /-- Which events are written, and where. -/
  logging : LoggingSettings := {}
  /-- How a script is surveyed. -/
  extraction : ExtractionSettings := {}
  deriving DecidableEq, Repr

/-! ### Settings as data -/

/-- An output as data. -/
def OutputSettings.toValue (output : OutputSettings) : Value :=
  .object
    [("format", .text output.format.name), ("destination", .text output.destination),
      ("level", .optText (output.level.map Level.name))]

/-- The settings of events as data. -/
def LoggingSettings.toValue (logging : LoggingSettings) : Value :=
  .object
    [("level", .text logging.level.name),
      ("outputs", .list (logging.outputs.map OutputSettings.toValue))]

/-- The settings of a survey as data. -/
def ExtractionSettings.toValue (extraction : ExtractionSettings) : Value :=
  .object
    [("max_file_size_mb", .nat extraction.maxFileSizeMb),
      ("include_strings", .bool extraction.includeStrings),
      ("include_dynamic_imports", .bool extraction.includeDynamicImports),
      ("attach_doc_comments", .bool extraction.attachDocComments)]

/-- All settings as data. -/
def Settings.toValue (settings : Settings) : Value :=
  .object
    [("logging", settings.logging.toValue), ("extraction", settings.extraction.toValue)]

/-- The bytes of the largest file that is read. -/
def ExtractionSettings.limit (settings : ExtractionSettings) : Nat :=
  settings.maxFileSizeMb * 1048576

end ShellSurvey
