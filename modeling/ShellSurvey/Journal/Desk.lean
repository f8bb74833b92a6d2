import ShellSurvey.Journal.Basic

/-!
# The desk

The journal over time, with those who tell it events. A teller has a name and fields of its own and
nothing of the journal: what it tells goes by the settings and the run of the moment, however long
ago the teller was made. Messages of other programs come to the same journal.

Not everything that is told is written down: an event may have no field under a name that telling it
needs itself, and a message whose arguments do not fit has no text.
-/

namespace ShellSurvey.Journal

/-- Who tells events. -/
structure Teller where
  /-- The name. -/
  name : String := "root"
  /-- The fields that go in front of those of every event. -/
  context : Fields := []

/-- What can happen at the desk. -/
inductive Act where
  /-- Other settings, whose outputs the system opens or refuses to open. -/
  | configure (opening : Opening) (settings : LoggingSettings)
  /-- The start of a run; an empty identifier gives way to a fresh one. -/
  | setRun (fresh : String) (id : Option String)
  /-- The end of a run. -/
  | clearRun
  /-- A teller, known under a key from now on. -/
  | introduce (key : String) (teller : Teller)
  /-- An event, told by the teller of a key. -/
  | tell (key : String) (level : Level) (name : String) (fields : Fields) (stamp : String)
  /-- A message of another program; none if its arguments do not fit. -/
  | relay (name : String) (level : Level) (message : Option String) (stamp : String)

/-- The names that no field of an event may have. -/
def reservedNames : List String :=
  ["self", "event", "method_name"]

/-- A journal and the tellers, the youngest first. -/
structure Desk where
  /-- The journal. -/
  journal : Journal := {}
  /-- The tellers by key. -/
  tellers : List (String × Teller) := []

namespace Desk

/-- The teller of a key. -/
def teller (desk : Desk) (key : String) : Teller :=
  ((desk.tellers.find? (fun entry => entry.1 == key)).map (·.2)).getD {}

/-- The desk after an act. -/
def after (desk : Desk) : Act → Desk
  | .configure opening settings => { desk with journal := desk.journal.configure opening settings }
  | .setRun fresh id => { desk with journal := desk.journal.setRun fresh id }
  | .clearRun => { desk with journal := desk.journal.clearRun }
  | .introduce key teller => { desk with tellers := (key, teller) :: desk.tellers }
  | .tell .. => desk
  | .relay .. => desk

/-- The record of an act that tells something. -/
def record? (desk : Desk) : Act → Option Record
  | .tell key level name fields stamp =>
    let teller := desk.teller key
    if fields.names.any reservedNames.contains then none
    else some (.ofEvent teller.name level name (teller.context ++ fields) stamp desk.journal.run)
  | .relay name level message stamp =>
    let teller := if name.isEmpty then "root" else name
    message.map (fun text => .ofMessage teller level text stamp desk.journal.run)
  | _ => none

/-- The lines that an act writes. -/
def lines (desk : Desk) (act : Act) : List Line :=
  match desk.record? act with
  | some record => desk.journal.write record
  | none => []

/-- The desk after several acts. -/
def afterAll (desk : Desk) (acts : List Act) : Desk :=
  acts.foldl after desk

/-- The lines that several acts write. -/
def linesOf (desk : Desk) : List Act → List Line
  | [] => []
  | act :: rest => desk.lines act ++ linesOf (desk.after act) rest

end Desk

end ShellSurvey.Journal
