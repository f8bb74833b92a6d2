import ShellSurvey.Value.Json.Writer

/-!
# Showing values in messages

A value in a message is written with `None`, `True` and `False` for the constants, brackets
around lists and braces around objects. Texts inside are quoted; a text that is the whole
value stands as it is.
-/

namespace ShellSurvey.Value

mutual

/-- A value inside a message, texts quoted. -/
def inspect : Value → List Char
  | .null => "None".toList
  | .bool b => if b then "True".toList else "False".toList
  | .int n => Text.Numeral.ofInt n
  | .float x => x.render
  | .text s => Text.quoted s.toList
  | .list items => '[' :: Json.separated [',', ' '] (inspectItems items) ++ [']']
  | .object fields => '\x7b' :: Json.separated [',', ' '] (inspectFields fields) ++ ['\x7d']

/-- The items of a list inside a message. -/
def inspectItems : List Value → List (List Char)
  | [] => []
  | item :: rest => inspect item :: inspectItems rest

/-- The fields of an object inside a message. -/
def inspectFields : List (String × Value) → List (List Char)
  | [] => []
  | (name, value) :: rest =>
    (Text.quoted name.toList ++ ':' :: ' ' :: inspect value) :: inspectFields rest

end

/-- A value as a message shows it. -/
def display : Value → String
  | .text s => s
  | value => String.ofList value.inspect

end ShellSurvey.Value
