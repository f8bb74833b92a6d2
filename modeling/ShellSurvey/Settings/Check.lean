import ShellSurvey.Text.Numeral
import ShellSurvey.Value.Basic

/-!
# Checking data

A check turns data into a setting. It does not stop at the first thing that is wrong: all issues
are collected, each with its place and the data found there. One thing ends everything at once: a
path below a home directory that is not known.
-/

namespace ShellSurvey.Settings

/-- What is wrong with a piece of data. -/
inductive Problem where
  /-- It is not an integer, nor a text or number that could be one. -/
  | integerKind
  /-- It is a number with a fraction where an integer belongs. -/
  | integerFraction
  /-- It is a text that does not read as an integer. -/
  | integerText
  /-- It is no finite number. -/
  | integerInfinite
  /-- It is an integer of excessive size. -/
  | integerSize
  /-- It is a size below one. -/
  | sizeNotPositive (size : Int)
  /-- It is neither true nor false, nor a text or number that could be either. -/
  | flagKind
  /-- It is a text or number that is neither true nor false. -/
  | flagText
  /-- It is not the name of a level. -/
  | levelName
  /-- It is not the name of a format. -/
  | formatName
  /-- It is not a text. -/
  | textKind
  /-- It is a path that is not absolute. -/
  | relativePath (text : String)
  /-- It is not a list. -/
  | listKind
  /-- It does not hold fields for a record of that name. -/
  | objectKind (record : String)
  /-- It is a field that nobody reads. -/
  | unexpected
  deriving DecidableEq, Repr

namespace Problem

/-- The short name of a problem. -/
def tag : Problem → String
  | .integerKind => "int_type"
  | .integerFraction => "int_from_float"
  | .integerText => "int_parsing"
  | .integerInfinite => "finite_number"
  | .integerSize => "int_parsing_size"
  | .sizeNotPositive _ => "value_error"
  | .flagKind => "bool_type"
  | .flagText => "bool_parsing"
  | .levelName => "literal_error"
  | .formatName => "literal_error"
  | .textKind => "string_type"
  | .relativePath _ => "value_error"
  | .listKind => "list_type"
  | .objectKind _ => "model_type"
  | .unexpected => "extra_forbidden"

/-- The message of a problem. -/
def message : Problem → String
  | .integerKind => "Input should be a valid integer"
  | .integerFraction =>
    "Input should be a valid integer, got a number with a fractional part"
  | .integerText => "Input should be a valid integer, unable to parse string as an integer"
  | .integerInfinite => "Input should be a finite number"
  | .integerSize =>
    "Unable to parse input string as an integer, exceeded maximum size"
  | .sizeNotPositive size =>
    "Value error, max_file_size_mb must be positive, got " ++ Text.Numeral.intText size
  | .flagKind => "Input should be a valid boolean"
  | .flagText => "Input should be a valid boolean, unable to interpret input"
  | .levelName => "Input should be 'DEBUG', 'INFO', 'WARNING', 'ERROR' or 'CRITICAL'"
  | .formatName => "Input should be 'json' or 'console'"
  | .textKind => "Input should be a valid string"
  | .relativePath text => "Value error, File destination must be absolute path: " ++ text
  | .listKind => "Input should be a valid list"
  | .objectKind record => "Input should be a valid dictionary or instance of " ++ record
  | .unexpected => "Extra inputs are not permitted"

end Problem

/-- A step from a piece of data to a part of it. -/
inductive Segment where
  /-- To the field of that name. -/
  | field (name : String)
  /-- To the item at that index. -/
  | item (index : Nat)
  deriving DecidableEq, Repr

/-- The text of a step. -/
def Segment.text : Segment → String
  | .field name => name
  | .item index => Text.Numeral.natText index

/-- Something that is wrong, and where. -/
structure Issue where
  /-- The way to the data. -/
  place : List Segment := []
  /-- What is wrong. -/
  problem : Problem
  /-- The data. -/
  input : Value
  deriving Repr

/-- An issue with a step before its place. -/
def Issue.under (segment : Segment) (issue : Issue) : Issue :=
  { issue with place := segment :: issue.place }

/-- The result of a check. -/
inductive Checked (α : Type) where
  /-- The data is in order and gives this. -/
  | valid (result : α)
  /-- Something is wrong, and maybe more. -/
  | invalid (first : Issue) (more : List Issue)
  /-- A path starts at a home directory that is not known. -/
  | homeless
  deriving Repr

namespace Checked

variable {α β : Type}

/-- The result of one problem with the data. -/
def problem (p : Problem) (input : Value) : Checked α :=
  .invalid { problem := p, input := input } []

/-- Applies a function to the result. -/
def map (f : α → β) : Checked α → Checked β
  | .valid a => .valid (f a)
  | .invalid first more => .invalid first more
  | .homeless => .homeless

/-- Joins a check of a function and a check of its argument; the issues of both count. -/
def apply : Checked (α → β) → Checked α → Checked β
  | .homeless, _ => .homeless
  | _, .homeless => .homeless
  | .valid f, .valid a => .valid (f a)
  | .valid _, .invalid first more => .invalid first more
  | .invalid first more, .valid _ => .invalid first more
  | .invalid first more, .invalid second others => .invalid first (more ++ second :: others)

/-- Puts a step before the places of all issues. -/
def under (segment : Segment) : Checked α → Checked α
  | .valid a => .valid a
  | .invalid first more => .invalid (first.under segment) (more.map (·.under segment))
  | .homeless => .homeless

/-- Checks a field, or takes the default where there is none. -/
def field (fields : Fields) (name : String) (default : α) (check : Value → Checked α) :
    Checked α :=
  match fields.get? name with
  | some value => (check value).under (.field name)
  | none => .valid default

/-- Checks all items of a list, counting from the given index. -/
def itemsFrom (check : Value → Checked α) : Nat → List Value → Checked (List α)
  | _, [] => .valid []
  | index, value :: rest =>
    ((check value).under (.item index)).map List.cons |>.apply (itemsFrom check (index + 1) rest)

end Checked

end ShellSurvey.Settings
