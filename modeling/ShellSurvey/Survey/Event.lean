import ShellSurvey.Journal.Level
import ShellSurvey.Value.Basic

/-!
# Events

What happens during a survey that is worth telling. An event has a name, a level, the part of
the program that tells it, and fields in a fixed order.
-/

namespace ShellSurvey

/-- Something that happens during a survey. -/
inductive Event where
  /-- The language of a grammar was loaded. -/
  | grammarLoaded (grammar module : String)
  /-- The tree of a file has faulty nodes. -/
  | parseErrors (file : String) (count : Nat)
  /-- The path of an import is not known. -/
  | dynamicImport (file : String) (line : Nat) (raw : String)
  /-- A file was surveyed. -/
  | fileExtracted (file : String) (functions imports exports strings : Nat)
  /-- A file was left out. -/
  | fileSkipped (file error : String)
  /-- The survey of a file failed in an unforeseen way, and how that came about. -/
  | extractFailed (file account : String)
  deriving DecidableEq, Repr

namespace Event

/-- The name of an event. -/
def name : Event → String
  | .grammarLoaded .. => "grammar_loaded"
  | .parseErrors .. => "parse_errors"
  | .dynamicImport .. => "dynamic_import_unresolved"
  | .fileExtracted .. => "file_extracted"
  | .fileSkipped .. => "file_skipped"
  | .extractFailed .. => "extract_failed"

/-- The level of an event. -/
def level : Event → Level
  | .grammarLoaded .. => .debug
  | .parseErrors .. => .warning
  | .dynamicImport .. => .warning
  | .fileExtracted .. => .debug
  | .fileSkipped .. => .info
  | .extractFailed .. => .error

/-- The part of the program that tells an event. -/
def teller : Event → String
  | .grammarLoaded .. => "shellfacts.parsing.treesitter"
  | .parseErrors .. => "shellfacts.extraction.extractor"
  | .dynamicImport .. => "shellfacts.extraction.extractor"
  | .fileExtracted .. => "shellfacts.extraction.extractor"
  | .fileSkipped .. => "shellfacts.cli.extract"
  | .extractFailed .. => "shellfacts.cli.extract"

/-- The fields of an event. -/
def fields : Event → Fields
  | .grammarLoaded grammar module => [("grammar", .text grammar), ("module", .text module)]
  | .parseErrors file count => [("file", .text file), ("error_count", .nat count)]
  | .dynamicImport file line raw =>
    [("file", .text file), ("line", .nat line), ("raw", .text raw)]
  | .fileExtracted file functions imports exports strings =>
    [("file", .text file), ("functions", .nat functions), ("imports", .nat imports),
      ("exports", .nat exports), ("strings", .nat strings)]
  | .fileSkipped file error => [("file", .text file), ("error", .text error)]
  | .extractFailed file _ => [("file", .text file), ("exc_info", .bool true)]

/-- What a reader is told below an event. -/
def account : Event → String
  | .extractFailed _ account => account
  | _ => ""

end Event

end ShellSurvey
