import ShellSurvey.Value.Display

/-!
# Faults

What can go wrong around a survey. A `Cause` says what happened; `Cause.fault` is the report
made of it, with a code, a message and details. The wording of every message is here.
-/

namespace ShellSurvey

/-- The code of a fault. -/
inductive Code where
  /-- A settings file cannot be read. -/
  | configParse
  /-- A setting has a value it may not have. -/
  | configInvalid
  /-- A settings file that was asked for is not there. -/
  | configMissing
  /-- The parser for a grammar is not installed. -/
  | grammarMissing
  /-- A query does not compile. -/
  | queryInvalid
  /-- A file is not a script. -/
  | unsupportedFile
  /-- A file is above the limit. -/
  | fileTooLarge
  /-- Something unforeseen. -/
  | internal
  deriving DecidableEq, Repr

namespace Code

/-- All codes in ascending order of their numbers. -/
def all : List Code :=
  [.configParse, .configInvalid, .configMissing, .grammarMissing, .queryInvalid,
    .unsupportedFile, .fileTooLarge, .internal]

/-- The number of a code. -/
def number : Code → Int
  | .configParse => 2001
  | .configInvalid => 2002
  | .configMissing => 2004
  | .grammarMissing => 3001
  | .queryInvalid => 3002
  | .unsupportedFile => 3003
  | .fileTooLarge => 3004
  | .internal => 9001

/-- The name of a code. -/
def name : Code → String
  | .configParse => "CONFIG_PARSE_ERROR"
  | .configInvalid => "CONFIG_INVALID_VALUE"
  | .configMissing => "CONFIG_FILE_NOT_FOUND"
  | .grammarMissing => "GRAMMAR_NOT_INSTALLED"
  | .queryInvalid => "GRAMMAR_QUERY_INVALID"
  | .unsupportedFile => "GRAMMAR_UNSUPPORTED_FILE"
  | .fileTooLarge => "GRAMMAR_FILE_TOO_LARGE"
  | .internal => "INTERNAL_ERROR"

/-- The code of a number. -/
def ofNumber? (n : Int) : Option Code :=
  all.find? (fun code => code.number == n)

/-- The message for a number that is no code. -/
def unknownMessage (n : Int) : String :=
  Text.Numeral.intText n ++ " is not a valid ErrorCode"

end Code

/-- The part of the program that a fault belongs to. -/
inductive Family where
  /-- No part in particular. -/
  | general
  /-- Settings. -/
  | config
  /-- Grammars, queries and files. -/
  | grammar
  /-- The program itself. -/
  | internal
  deriving DecidableEq, Repr

/-- A report of something that went wrong. -/
structure Fault where
  /-- The part of the program. -/
  family : Family
  /-- The code. -/
  code : Code
  /-- The message. -/
  message : String
  /-- Whether trying again may help. -/
  retryable : Bool := false
  /-- Further facts by name. -/
  details : Fields := []
  deriving Repr

namespace Fault

/-- The fault on one line. -/
def text (fault : Fault) : String :=
  "[" ++ Text.Numeral.intText fault.code.number ++ "] " ++ fault.code.name ++ ": " ++ fault.message

/-- The fault as data. -/
def toValue (fault : Fault) : Value :=
  .object
    [("code", .int fault.code.number), ("error", .text fault.code.name),
      ("message", .text fault.message), ("retryable", .bool fault.retryable),
      ("details", .object fault.details)]

end Fault

/-- What went wrong. -/
inductive Cause where
  /-- The settings file at the path cannot be read. -/
  | configParse (path reason : String)
  /-- The setting has a value it may not have. -/
  | configInvalid (field : String) (value : Value) (reason : String)
  /-- There is no settings file at the path. -/
  | configMissing (path : String)
  /-- The parser of that module is not installed. -/
  | grammarMissing (module package : String)
  /-- The query of the category does not compile. -/
  | queryInvalid (category reason : String)
  /-- The file at the path is not a script. -/
  | unsupportedFile (path : String)
  /-- The file at the path is larger than the limit. -/
  | fileTooLarge (path : String) (size limit : Int)
  /-- Something unforeseen. -/
  | internal (reason : String) (details : Fields)
  deriving Repr

/-- The report of a cause. -/
def Cause.fault : Cause → Fault
  | .configParse path reason =>
    { family := .config, code := .configParse
      message := "Failed to parse config at " ++ path ++ ": " ++ reason
      details := [("path", .text path), ("reason", .text reason)] }
  | .configInvalid field value reason =>
    { family := .config, code := .configInvalid
      message := "Invalid value for '" ++ field ++ "': " ++ reason
      details :=
        [("field", .text field), ("value", .text value.display), ("reason", .text reason)] }
  | .configMissing path =>
    { family := .config, code := .configMissing
      message := "Config file not found: " ++ path
      details := [("path", .text path)] }
  | .grammarMissing module package =>
    { family := .grammar, code := .grammarMissing
      message :=
        "Grammar module '" ++ module ++ "' is not installed (pip install " ++ package ++ ")"
      details := [("module", .text module), ("package", .text package)] }
  | .queryInvalid category reason =>
    { family := .grammar, code := .queryInvalid
      message := "Query '" ++ category ++ "' failed to compile: " ++ reason
      details := [("category", .text category), ("reason", .text reason)] }
  | .unsupportedFile path =>
    { family := .grammar, code := .unsupportedFile
      message := "No grammar registered for " ++ path
      details := [("path", .text path)] }
  | .fileTooLarge path size limit =>
    { family := .grammar, code := .fileTooLarge
      message :=
        path ++ " is " ++ Text.Numeral.intText size ++ " bytes, limit is " ++
          Text.Numeral.intText limit
      details := [("path", .text path), ("size_bytes", .int size), ("limit_bytes", .int limit)] }
  | .internal reason details =>
    { family := .internal, code := .internal
      message := "Internal error: " ++ reason
      details := details }

end ShellSurvey
