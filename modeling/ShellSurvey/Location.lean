import ShellSurvey.Tree.Node

/-!
# Locations

Where something stands in a file, with lines and columns counted from one. What has no place
of its own has the location of all zeros.
-/

namespace ShellSurvey

/-- A part of a file. -/
structure Location where
  /-- The file. -/
  file : String := ""
  /-- The first line. -/
  line : Nat := 0
  /-- The first column, in bytes. -/
  column : Nat := 0
  /-- The last line. -/
  endLine : Nat := 0
  /-- The column behind the last one, in bytes. -/
  endColumn : Nat := 0
  deriving DecidableEq, Repr

namespace Location

/-- The location of a part of a file. -/
def ofSpan (file : String) (span : Span) : Location where
  file := file
  line := span.start.row + 1
  column := span.start.column + 1
  endLine := span.stop.row + 1
  endColumn := span.stop.column + 1

/-- The location of a part of a file, if it has one. -/
def ofSpan? (file : String) : Option Span → Location
  | some span => ofSpan file span
  | none => { file := file }

end Location

end ShellSurvey
