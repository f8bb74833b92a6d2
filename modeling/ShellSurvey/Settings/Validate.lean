import ShellSurvey.Settings.Scalar

/-!
# Checking records of settings

Each record is checked field by field in a fixed order. A field that is missing has its default,
and a field that nobody reads is passed over.
-/

namespace ShellSurvey.Settings

/-- Checks the fields of a record of that name. -/
def checkRecord {α : Type} (record : String) (check : Fields → Checked α) (value : Value) :
    Checked α :=
  match value with
  | .object fields => check fields
  | _ => .problem (.objectKind record) value

/-- Checks an output. -/
def checkOutput (homes : Homes) : Value → Checked OutputSettings :=
  checkRecord "LogOutputConfig" (fun fields =>
    (Checked.field fields "format" .console checkFormat).map OutputSettings.mk
      |>.apply (Checked.field fields "destination" "stderr" (checkDestination homes))
      |>.apply (Checked.field fields "level" none checkOptionalLevel))

/-- Checks a list of outputs. -/
def checkOutputs (homes : Homes) (value : Value) : Checked (List OutputSettings) :=
  match value with
  | .list items => Checked.itemsFrom (checkOutput homes) 0 items
  | _ => .problem .listKind value

/-- Checks the settings of events. -/
def checkLogging (homes : Homes) : Value → Checked LoggingSettings :=
  checkRecord "LoggingConfig" (fun fields =>
    (Checked.field fields "level" .warning checkLevel).map LoggingSettings.mk
      |>.apply (Checked.field fields "outputs" [{}] (checkOutputs homes)))

/-- Checks the level for events that go to the standard error stream alone; a level that is left
open is that of information. -/
def checkStream (format : Format) (level : Option Value) : Checked LoggingSettings :=
  let fields : Fields := (level.map (fun value => ("level", value))).toList
  (Checked.field fields "level" .info checkLevel).map (fun least =>
    { level := least, outputs := [{ format := format }] })

/-- Checks the settings of a survey. -/
def checkExtraction : Value → Checked ExtractionSettings :=
  checkRecord "ExtractionConfig" (fun fields =>
    (Checked.field fields "max_file_size_mb" 5 checkSize).map ExtractionSettings.mk
      |>.apply (Checked.field fields "include_strings" true checkFlag)
      |>.apply (Checked.field fields "include_dynamic_imports" true checkFlag)
      |>.apply (Checked.field fields "attach_doc_comments" true checkFlag))

/-- Checks the fields of all settings. -/
def checkFields (homes : Homes) (fields : Fields) : Checked Settings :=
  (Checked.field fields "logging" {} (checkLogging homes)).map Settings.mk
    |>.apply (Checked.field fields "extraction" {} checkExtraction)

/-- Checks all settings. -/
def checkSettings (homes : Homes) : Value → Checked Settings :=
  checkRecord "ShellFactsConfig" (checkFields homes)

/-- The names of the records of settings. -/
def recordNames : List String :=
  ["logging", "extraction"]

/-- The issues of fields that are no record of settings. -/
def strayIssues (fields : Fields) : List Issue :=
  (fields.filter (fun entry => !recordNames.contains entry.1)).map (fun entry =>
    { place := [.field entry.1], problem := .unexpected, input := entry.2 })

/-- Checks the fields of all settings and lets no other field stand. -/
def checkClosed (homes : Homes) (fields : Fields) : Checked Settings :=
  match strayIssues fields with
  | [] => checkFields homes fields
  | first :: more =>
    (checkFields homes fields).map (fun settings (_ : Unit) => settings)
      |>.apply (.invalid first more)

end ShellSurvey.Settings
