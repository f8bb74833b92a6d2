import ShellSurvey.Text.Blank

/-!
# Line endings and the texts of a script

Text may end its lines with a line feed, a carriage return, or both. `unify` writes every one
of them as a single line feed. It works in two passes, pairs first, so that a pair does not
count twice; `unifyOnce` reads the same result off in one pass from left to right.

This is also how the text of a script is kept. A body has its line endings unified and the blanks
around it removed, and is otherwise as written. A here-document of the kind that may be indented
loses the tabs at the front of each line. A comment loses its marker, one blank after it, and the
blanks around what is left.
-/

namespace ShellSurvey.Text

/-- Every carriage return that a line feed follows is dropped. -/
def joinPairs : List Char → List Char
  | '\r' :: '\n' :: rest => '\n' :: joinPairs rest
  | c :: rest => c :: joinPairs rest
  | [] => []

/-- Every carriage return becomes a line feed. -/
def feedReturns (cs : List Char) : List Char :=
  cs.map (fun c => if c = '\r' then '\n' else c)

/-- Every line ending becomes a single line feed. -/
def unify (cs : List Char) : List Char :=
  feedReturns (joinPairs cs)

/-- Reading from left to right, a pair and a lone carriage return each give one line feed. -/
def unifyOnce : List Char → List Char
  | '\r' :: '\n' :: rest => '\n' :: unifyOnce rest
  | '\r' :: rest => '\n' :: unifyOnce rest
  | c :: rest => c :: unifyOnce rest
  | [] => []

end ShellSurvey.Text

namespace ShellSurvey.Script

/-- A body with unified line endings and no blanks around it. -/
def normalBody (body : List Char) : List Char :=
  Text.trim (Text.unify body)

/-- A here-document as the shell reads it; `stripped` tells whether leading tabs go. -/
def normalHereDocument (content : List Char) (stripped : Bool) : List Char :=
  if stripped then
    Text.joinWith '\n'
      ((Text.splitWhere (· == '\n') content).map (fun line => line.dropWhile (· == '\t')))
  else content

/-- The text of a comment without its marker. -/
def commentText (comment : List Char) : List Char :=
  match comment with
  | '#' :: c :: rest => Text.trim (if Text.isBlank c then rest else c :: rest)
  | '#' :: [] => []
  | other => Text.trim other

end ShellSurvey.Script
