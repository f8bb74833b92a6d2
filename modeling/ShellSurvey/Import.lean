import ShellSurvey.Capture
import ShellSurvey.Text.Quoted

/-!
# Imports

A statement that reads another file brings in all of its definitions, so its name is the path
itself. A path that only running the script would tell is not guessed: the record is then
dynamic, and its name and path are empty.
-/

namespace ShellSurvey

/-- A statement that reads another file. -/
structure Import where
  /-- The name, which is the path. -/
  name : String
  /-- The path, empty if it is not known. -/
  fromPath : String
  /-- Where the statement stands. -/
  location : Location
  /-- Whether the path depends on running the script. -/
  isDynamic : Bool := false
  /-- The argument as written. -/
  raw : String := ""
  deriving DecidableEq, Repr

namespace Import

/-- Whether the path is known. -/
def isResolved (i : Import) : Bool :=
  !i.fromPath.isEmpty

/-- Whether a path depends on running the script: it holds an expansion or a command between
two grave accents. -/
def isDynamicPath (path : List Char) : Bool :=
  path.contains '$' || decide (2 ≤ path.count '\x60')

/-- The import of a match. Its place is that of the statement, else of the argument, else the
one given. -/
def ofCaptures (captures : Captures) (place : Option Span) : Import :=
  let span := ((captures.first? ["import", "import.from"]).map (·.site.span)).or place
  let raw := captures.textD "import.from" ""
  let path := Text.unquote raw.toList
  let dynamic := isDynamicPath path
  let known := if dynamic then "" else String.ofList path
  { name := known, fromPath := known, location := Location.ofSpan? "" span,
    isDynamic := dynamic, raw := raw }

end Import

end ShellSurvey
