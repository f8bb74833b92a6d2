import ShellSurvey.Text.Case

/-!
# Levels

How weighty an event is. Levels are compared by their numbers; `Level.numberOf` reads a name in
any case, common second names included.
-/

namespace ShellSurvey

/-- The weight of an event. -/
inductive Level where
  /-- Of use to those who look for a fault. -/
  | debug
  /-- Worth knowing. -/
  | info
  /-- Out of the ordinary. -/
  | warning
  /-- A failure. -/
  | error
  /-- A failure of everything. -/
  | critical
  deriving DecidableEq, Repr

namespace Level

/-- All levels in ascending order. -/
def all : List Level :=
  [.debug, .info, .warning, .error, .critical]

/-- The number of a level. -/
def number : Level → Int
  | .debug => 10
  | .info => 20
  | .warning => 30
  | .error => 40
  | .critical => 50

/-- The name of a level in capitals, as settings write it. -/
def name : Level → String
  | .debug => "DEBUG"
  | .info => "INFO"
  | .warning => "WARNING"
  | .error => "ERROR"
  | .critical => "CRITICAL"

/-- The name of a level in small letters, as events write it. -/
def label : Level → String
  | .debug => "debug"
  | .info => "info"
  | .warning => "warning"
  | .error => "error"
  | .critical => "critical"

/-- The level that settings write so. -/
def ofName? (name : String) : Option Level :=
  all.find? (fun level => level.name == name)

/-- The level that events write so. -/
def ofLabel? (label : String) : Option Level :=
  if label == "warn" then some .warning
  else if label == "exception" then some .error
  else if label == "fatal" then some .critical
  else all.find? (fun level => level.label == label)

/-- The numbers of all names. -/
def names : List (String × Int) :=
  [("CRITICAL", 50), ("FATAL", 50), ("ERROR", 40), ("WARNING", 30), ("WARN", 30), ("INFO", 20),
    ("DEBUG", 10), ("NOTSET", 0)]

/-- The number of a name in any case, or the given number for an unknown or missing one. -/
def numberOf (name : Option String) (fallback : Int) : Int :=
  match name with
  | none => fallback
  | some text =>
    let capitals := String.ofList (Text.upper text.toList)
    match names.find? (fun entry => entry.1 == capitals) with
    | some entry => entry.2
    | none => fallback

end Level

end ShellSurvey
