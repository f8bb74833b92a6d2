import ShellSurvey.Fault
import ShellSurvey.Volume

/-!
# Failures

Why a script has no facts. Most failures are foreseen and reported as a fault or as an error of
the file system; what is not foreseen is only known by its kind and text.
-/

namespace ShellSurvey.Survey

/-- What goes wrong outside of all that is checked. -/
inductive Trouble where
  /-- The system refuses to read, with that text. -/
  | unreadable (text : String)
  /-- Something unforeseen of that kind, with that text. -/
  | unforeseen (kind text : String)
  deriving DecidableEq, Repr

/-- Why a script is not surveyed. -/
inductive Failure where
  /-- Something that is reported as a fault. -/
  | fault (cause : Cause)
  /-- The file at the path cannot be read. -/
  | file (error : FileError) (path : String)
  /-- Something that is not checked. -/
  | trouble (trouble : Trouble)

/-- The text of a failure. -/
def Failure.text : Failure → String
  | .fault cause => cause.fault.text
  | .file error path => error.message path
  | .trouble (.unreadable text) => text
  | .trouble (.unforeseen _ text) => text

/-- What is looked up and is not there. -/
inductive Absent where
  /-- No part of the match has that label. -/
  | label (name : String)
  /-- The source has no such row. -/
  | row (number : Nat)
  deriving DecidableEq, Repr

/-- The failure of a lookup. -/
def Absent.failure : Absent → Failure
  | .label name =>
    .trouble (.unforeseen "KeyError" (String.ofList (Text.quoted name.toList)))
  | .row _ => .trouble (.unforeseen "IndexError" "list index out of range")

end ShellSurvey.Survey
