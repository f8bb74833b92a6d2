import ShellSurvey.Journal.Record
import ShellSurvey.Settings.Basic
import ShellSurvey.Survey.Event

/-!
# The journal

The journal knows the least level of events, the outputs and the run at hand. An event is written
to every output whose level it reaches. Without any output, what is out of the ordinary goes
plainly to the standard error stream.

The outputs of settings are opened one after the other. The system may refuse to open a file, and
then that output and those behind it are not set up.
-/

namespace ShellSurvey

/-- An output of the journal. -/
structure Journal.Output where
  /-- How an event is written. -/
  format : Format
  /-- A standard stream or a file. -/
  destination : String
  /-- The least level that is written. -/
  level : Level
  deriving DecidableEq, Repr

/-- Where events go. -/
structure Journal where
  /-- The least level of all events. -/
  level : Level := .warning
  /-- The outputs. -/
  outputs : List Journal.Output := []
  /-- The run at hand. -/
  run : Option String := none
  deriving DecidableEq, Repr

namespace Journal

/-- A line for a destination. -/
structure Line where
  /-- The destination. -/
  destination : String
  /-- The text, its line ending included. -/
  text : String
  deriving DecidableEq, Repr

/-! ### Settings -/

/-- Why the system refuses to open a file: the kind of its error, and the text. -/
structure Refusal where
  /-- The kind. -/
  kind : String
  /-- The text. -/
  text : String
  deriving DecidableEq, Repr

/-- What the system answers when a file is to be opened for an output, given the destinations of
the outputs that are set up before it: why not, or nothing if it is open. -/
abbrev Opening := List String → String → Option Refusal

/-- The standard streams, which are always open. -/
def streams : List String :=
  ["stderr", "stdout"]

/-- What the system answers for an output behind others. -/
def Opening.refusal? (opening : Opening) (before : List OutputSettings) (output : OutputSettings) :
    Option Refusal :=
  if streams.contains output.destination then none
  else opening (before.map (·.destination)) output.destination

/-- What comes of opening outputs. -/
structure Opened where
  /-- The outputs that are set up. -/
  outputs : List OutputSettings
  /-- Why the next one is not. -/
  refusal : Option Refusal := none

/-- Opens outputs behind others, up to the first that is refused. -/
def Opening.openAll (opening : Opening) (before : List OutputSettings) :
    List OutputSettings → Opened
  | [] => { outputs := before }
  | output :: rest =>
    match opening.refusal? before output with
    | some refusal => { outputs := before, refusal := some refusal }
    | none => opening.openAll (before ++ [output]) rest

/-- Opens the outputs of settings. -/
def Opening.opened (opening : Opening) (settings : LoggingSettings) : Opened :=
  opening.openAll [] settings.outputs

/-- The output of the settings; a level that is left open is that of all events. -/
def Output.ofSettings (level : Level) (output : OutputSettings) : Output where
  format := output.format
  destination := output.destination
  level := output.level.getD level

/-- The journal with other settings. Nothing is left of the outputs before. -/
def configure (journal : Journal) (opening : Opening) (settings : LoggingSettings) : Journal :=
  { journal with
    level := settings.level
    outputs := (opening.opened settings).outputs.map (Output.ofSettings settings.level) }

/-! ### Runs -/

/-- The journal for a run; an empty identifier gives way to a fresh one. -/
def setRun (journal : Journal) (fresh : String) (id : Option String) : Journal :=
  { journal with
    run :=
      match id with
      | some text => if text.isEmpty then some fresh else some text
      | none => some fresh }

/-- The journal for no run. -/
def clearRun (journal : Journal) : Journal :=
  { journal with run := none }

/-! ### Lines -/

/-- Whether a level reaches another one. -/
def reaches (level least : Level) : Bool :=
  least.number ≤ level.number

/-- The line of a record on an output, if its level is reached. -/
def Output.line? (output : Output) (record : Record) : Option Line :=
  if reaches record.level output.level then
    let text :=
      match output.format with
      | .json => record.jsonLine
      | .console => record.consoleLine
    some ⟨output.destination, text ++ "\n"⟩
  else none

/-- The lines of a record. -/
def write (journal : Journal) (record : Record) : List Line :=
  if reaches record.level journal.level then
    if journal.outputs.isEmpty then
      if reaches record.level .warning then [⟨"stderr", record.plain ++ "\n"⟩] else []
    else journal.outputs.filterMap (fun output => output.line? record)
  else []

/-- The lines of an event of a survey. -/
def tell (journal : Journal) (stamp : String) (event : Event) : List Line :=
  let record :=
    Record.ofEvent event.teller event.level event.name event.fields stamp journal.run
  journal.write { record with account := event.account }

/-- The lines of several events. -/
def tellAll (journal : Journal) (stamp : String) (events : List Event) : List Line :=
  events.flatMap (journal.tell stamp)

end Journal

end ShellSurvey
