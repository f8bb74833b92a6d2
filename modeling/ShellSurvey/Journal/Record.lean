import ShellSurvey.Journal.Level
import ShellSurvey.Text.Quoted
import ShellSurvey.Value.Display
import ShellSurvey.Value.Json.Writer

/-!
# Records

A record is an event as it is written down: its own fields, then its name, its level, who told
it, when, and the run it belongs to. A name that is there already keeps its place and takes the
new value. A record is written as a JSON object or as words and pairs on a line, with the account
of a failure below.
-/

namespace ShellSurvey.Journal

/-- An event as it is written down. -/
structure Record where
  /-- The level. -/
  level : Level
  /-- The fields in order. -/
  fields : Fields
  /-- What is written where no output is set up. -/
  plain : String
  /-- What is told below the words and pairs. -/
  account : String := ""

/-- The fields that every record has at its end. -/
def closing (level : Level) (teller stamp : String) (run : Option String) : Fields :=
  [("level", .text level.label), ("logger", .text teller), ("timestamp", .text stamp)] ++
    match run with
    | some id => [("run_id", .text id)]
    | none => []

/-- The record of an event of the program. -/
def Record.ofEvent (teller : String) (level : Level) (name : String) (fields : Fields)
    (stamp : String) (run : Option String) : Record :=
  let all :=
    Fields.putAll (Fields.put (Fields.distinct fields) "event" (.text name))
      (closing level teller stamp run)
  { level := level, fields := all, plain := String.ofList (Value.object all).inspect }

/-- The record of a message of another program. -/
def Record.ofMessage (teller : String) (level : Level) (message : String) (stamp : String)
    (run : Option String) : Record where
  level := level
  fields := Fields.putAll [("event", .text message)] (closing level teller stamp run)
  plain := message

/-! ### Writing -/

/-- A record as a JSON object. -/
def Record.jsonLine (record : Record) : String :=
  Json.line (.object record.fields)

/-- The characters for which a text is quoted. -/
def isDelicate (c : Char) : Bool :=
  c == ' ' || c == '\t' || c == '=' || c == '\r' || c == '\n' || c == '"' || c == '\''

/-- The value of a pair. -/
def pairValue : Value → String
  | .text text =>
    if text.toList.any isDelicate then String.ofList (Text.quoted text.toList) else text
  | value => String.ofList value.inspect

/-- The names that have a place of their own at the front of a line. -/
def leading : List String :=
  ["timestamp", "level", "event", "logger", "logger_name"]

/-- The names that are written between brackets. -/
def bracketed : List String :=
  ["level", "logger", "logger_name"]

/-- The word of a leading name. -/
def leadingWord (fields : Fields) (name : String) : Option String :=
  (fields.get? name).map (fun value =>
    if bracketed.contains name then "[" ++ value.display ++ "]" else value.display)

/-- Whether a name comes no later than another one. -/
def nameLe (a b : String × Value) : Bool :=
  !decide (b.1 < a.1)

/-- The name that asks for the account of a failure, which stands below the line instead. -/
def accountName : String := "exc_info"

/-- The pairs of a line in order of their names. -/
def pairs (fields : Fields) : List String :=
  let own := fields.filter (fun entry => !(accountName :: leading).contains entry.1)
  (own.mergeSort nameLe).map (fun entry => entry.1 ++ "=" ++ pairValue entry.2)

/-- A text without the spaces at its back. -/
def dropSpaces (text : String) : String :=
  String.ofList (text.toList.reverse.dropWhile (· == ' ')).reverse

/-- A record as words and pairs, and the account below. -/
def Record.consoleLine (record : Record) : String :=
  let words := leading.filterMap (leadingWord record.fields) ++ pairs record.fields
  dropSpaces (" ".intercalate (words.filter (fun word => !word.isEmpty))) ++ record.account

end ShellSurvey.Journal
