import ShellSurvey.Value.Yaml.Flow

/-!
# YAML lists and mappings by indentation

The entries of a list or a mapping start at one column, and what belongs to an entry stands
deeper. Only a list as the value of a key may start at the column of the key. Each reader takes
a place where an entry starts and gives back the place of the next content.
-/

namespace ShellSurvey.Yaml

/-- A place in a text at which content starts: the text from it on, and its column. -/
structure Place where
  /-- The text from the place on. -/
  rest : List Char
  /-- The column. -/
  column : Nat
  deriving DecidableEq, Repr

/-- The next content at or behind a place; the flag tells whether a comment is being passed
over. -/
def seek : Bool → Nat → List Char → Place
  | _, column, [] => ⟨[], column⟩
  | true, column, c :: rest =>
    if c = '\n' then seek false 0 rest else seek true (column + 1) rest
  | false, column, c :: rest =>
    if c = '\n' then seek false 0 rest
    else if c = ' ' then seek false (column + 1) rest
    else if c = '#' then seek true (column + 1) rest
    else ⟨c :: rest, column⟩

/-- Whether a document ends at a place. -/
def Place.atEnd (place : Place) : Bool :=
  place.rest.isEmpty || (place.column == 0 && isMarker place.rest)

/-- Whether nothing but blanks and a comment is left on the line. -/
def endsLine (cs : List Char) : Bool :=
  match cs.dropWhile (· == ' ') with
  | [] => true
  | c :: _ => c == '\n' || c == '#'

/-- The next content on a later line, if nothing else is left on this one. -/
def nextLine? (cs : List Char) : Option Place :=
  if endsLine cs then some (seek false 0 cs) else none

/-- Whether an entry of a list starts with a text. -/
def isDash : List Char → Bool
  | '-' :: rest => atBlank rest
  | _ => false

/-- The text behind the colon of a key, if one follows. -/
def afterColon? (cs : List Char) : Option (List Char) :=
  match cs.dropWhile (· == ' ') with
  | ':' :: rest => if atBlank rest then some rest else none
  | _ => none

/-- A scalar on one line at the front of a text, and what follows it. -/
def readKeyScalar? (cs : List Char) : Option (Value × List Char) :=
  if startsQuoted cs then
    let line := cs.takeWhile (· != '\n')
    (readQuoted line).map (fun r =>
      (.text (String.ofList r.1), r.2 ++ cs.drop line.length))
  else if startsPlain false cs then
    let plain := plainLine false cs
    some (resolve plain.1, plain.2)
  else none

/-- The key of an entry of a mapping at the front of a text, and the text behind its colon. -/
def readKey? (cs : List Char) : Option (String × List Char) :=
  match readKeyScalar? cs with
  | none => none
  | some (value, rest) =>
    match keyText? value, afterColon? rest with
    | some key, some after => some (key, after)
    | _, _ => none

/-- A scalar or a bracket at the front of a text, and what follows it. Further lines of a scalar
without quotes belong to it from column `indent` on. -/
def readInline (indent : Nat) (cs : List Char) : Option (Value × List Char) :=
  match cs with
  | [] => none
  | c :: _ =>
    if c = '[' ∨ c = '\x7b' then readFlow (2 * cs.length + 2) cs
    else if startsQuoted cs then
      (readQuoted cs).map (fun r => (.text (String.ofList r.1), r.2))
    else if startsPlain false cs then
      let plain := readPlain false indent (cs.length + 1) cs
      some (resolve plain.1, plain.2)
    else none

mutual

/-- The value at a place. Further lines of a scalar belong to it from column `indent` on. -/
def readBlock (bound indent : Nat) (place : Place) : Option (Value × Place) :=
  match bound with
  | 0 => none
  | bound + 1 =>
    if isDash place.rest then
      (readEntries bound place.column place).map (fun r => (.list r.1, r.2))
    else if (readKey? place.rest).isSome then
      (readPairs bound place.column place).map (fun r => (.object (Fields.distinct r.1), r.2))
    else
      match readInline indent place.rest with
      | none => none
      | some (value, rest) => (nextLine? rest).map (fun next => (value, next))

/-- The entries of a list whose dashes stand at the column. -/
def readEntries (bound column : Nat) (place : Place) : Option (List Value × Place) :=
  match bound with
  | 0 => none
  | bound + 1 =>
    let start := seek false (column + 1) (place.rest.drop 1)
    let entry : Option (Value × Place) :=
      if start.atEnd || (endsLine (place.rest.drop 1) && start.column ≤ column) then
        some (.null, start)
      else readBlock bound (column + 1) start
    match entry with
    | none => none
    | some (item, next) =>
      if next.atEnd || next.column < column then some ([item], next)
      else if column < next.column then none
      else if isDash next.rest then
        (readEntries bound column next).map (fun r => (item :: r.1, r.2))
      else some ([item], next)

/-- The pairs of a mapping whose keys stand at the column. -/
def readPairs (bound column : Nat) (place : Place) : Option (Fields × Place) :=
  match bound with
  | 0 => none
  | bound + 1 =>
    match readKey? place.rest with
    | none => none
    | some (key, after) =>
      let value : Option (Value × Place) :=
        if endsLine after then
          let next := seek false 0 after
          if next.atEnd || next.column < column then some (.null, next)
          else if column < next.column then readBlock bound (column + 1) next
          else if isDash next.rest then
            (readEntries bound column next).map (fun r => (.list r.1, r.2))
          else some (.null, next)
        else
          match readInline (column + 1) (after.dropWhile (· == ' ')) with
          | none => none
          | some (value, rest) => (nextLine? rest).map (fun next => (value, next))
      match value with
      | none => none
      | some (item, next) =>
        if next.atEnd || next.column < column then some ([(key, item)], next)
        else if column < next.column then none
        else (readPairs bound column next).map (fun r => ((key, item) :: r.1, r.2))

end

end ShellSurvey.Yaml
