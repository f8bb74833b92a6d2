import ShellSurvey.Value.Basic
import ShellSurvey.Decimal.Shortest
import ShellSurvey.Text.Quoted
import ShellSurvey.Text.Numeral

/-!
# Writing JSON

Two layouts of one format. `Json.line` writes a value on one line, with a blank after each
comma and each colon. `Json.page` writes every item on a line of its own, two further blanks
deep per level. Characters outside ASCII are written as UTF-16 code units, so the result is
ASCII.
-/

namespace ShellSurvey.Json

/-- A code unit as an escape. -/
def unitEscape (unit : Nat) : List Char :=
  '\\' :: 'u' :: Text.hexDigits 4 unit

/-- One character of a quoted text. -/
def writeChar (c : Char) : List Char :=
  let n := c.toNat
  if c = '"' ∨ c = '\\' then ['\\', c]
  else if c = '\n' then ['\\', 'n']
  else if c = '\r' then ['\\', 'r']
  else if c = '\t' then ['\\', 't']
  else if n = 0x08 then ['\\', 'b']
  else if n = 0x0C then ['\\', 'f']
  else if 0x20 ≤ n ∧ n < 0x7F then [c]
  else if n < 0x10000 then unitEscape n
  else
    unitEscape (0xD800 + (n - 0x10000) / 0x400) ++ unitEscape (0xDC00 + (n - 0x10000) % 0x400)

/-- A text in quotes. -/
def writeText (s : String) : List Char :=
  '"' :: s.toList.flatMap writeChar ++ ['"']

/-- A floating-point number. -/
def writeFloat : Binary64 → List Char
  | .infinite negative => if negative then "-Infinity".toList else "Infinity".toList
  | .nan => "NaN".toList
  | x => x.render

/-- The texts one after the other, with a separator between neighbours. -/
def separated (sep : List Char) : List (List Char) → List Char
  | [] => []
  | [piece] => piece
  | piece :: rest => piece ++ sep ++ separated sep rest

mutual

/-- A value on one line. -/
def writeLine : Value → List Char
  | .null => "null".toList
  | .bool b => if b then "true".toList else "false".toList
  | .int n => Text.Numeral.ofInt n
  | .float x => writeFloat x
  | .text s => writeText s
  | .list items => '[' :: separated [',', ' '] (writeItems items) ++ [']']
  | .object fields => '\x7b' :: separated [',', ' '] (writeFields fields) ++ ['\x7d']

/-- The items of a list, each on one line. -/
def writeItems : List Value → List (List Char)
  | [] => []
  | item :: rest => writeLine item :: writeItems rest

/-- The fields of an object, each on one line. -/
def writeFields : List (String × Value) → List (List Char)
  | [] => []
  | (name, value) :: rest =>
    (writeText name ++ ':' :: ' ' :: writeLine value) :: writeFields rest

end

/-- A line break and the blanks of a level. -/
def lineBreak (level : Nat) : List Char :=
  '\n' :: List.replicate (2 * level) ' '

/-- Pieces between brackets, each on a line of its own one level deeper. -/
def bracketed (level : Nat) (opening closing : Char) (pieces : List (List Char)) : List Char :=
  if pieces.isEmpty then [opening, closing]
  else
    opening :: lineBreak (level + 1) ++
      separated (',' :: lineBreak (level + 1)) pieces ++ lineBreak level ++ [closing]

mutual

/-- A value at a level, its items on lines of their own. -/
def writePage (level : Nat) : Value → List Char
  | .list items => bracketed level '[' ']' (pageItems (level + 1) items)
  | .object fields => bracketed level '\x7b' '\x7d' (pageFields (level + 1) fields)
  | .null => writeLine .null
  | .bool b => writeLine (.bool b)
  | .int n => writeLine (.int n)
  | .float x => writeLine (.float x)
  | .text s => writeLine (.text s)

/-- The items of a list at a level. -/
def pageItems (level : Nat) : List Value → List (List Char)
  | [] => []
  | item :: rest => writePage level item :: pageItems level rest

/-- The fields of an object at a level. -/
def pageFields (level : Nat) : List (String × Value) → List (List Char)
  | [] => []
  | (name, value) :: rest =>
    (writeText name ++ ':' :: ' ' :: writePage level value) :: pageFields level rest

end

/-- A value as one line of JSON. -/
def line (value : Value) : String :=
  String.ofList (writeLine value)

/-- A value as JSON over several lines. -/
def page (value : Value) : String :=
  String.ofList (writePage 0 value)

end ShellSurvey.Json
