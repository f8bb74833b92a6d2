import ShellSurvey.Value.Yaml.Plain

/-!
# YAML lists and mappings in brackets

Between brackets line endings count as blanks and comments are passed over. A key needs no value,
and a pair in a list is a mapping of its own.
-/

namespace ShellSurvey.Yaml

/-- The text after spaces, line endings and comments; the flag tells whether a comment is being
passed over. -/
def skipFlow : Bool → List Char → List Char
  | _, [] => []
  | true, c :: rest => skipFlow (c != '\n') rest
  | false, c :: rest =>
    if c = ' ' ∨ c = '\n' then skipFlow false rest
    else if c = '#' then skipFlow true rest
    else c :: rest

/-- The text of a value that serves as a key. -/
def keyText? : Value → Option String
  | .text text => some text
  | .int n => some (Text.Numeral.intText n)
  | .bool true => some "true"
  | .bool false => some "false"
  | .null => some "null"
  | _ => none

/-- A scalar at the front of a text between brackets, and what follows it. -/
def readInnerScalar (cs : List Char) : Option (Value × List Char) :=
  if startsQuoted cs then
    (readQuoted cs).map (fun r => (.text (String.ofList r.1), r.2))
  else if startsPlain true cs then
    let plain := readPlain true 0 (cs.length + 1) cs
    some (resolve plain.1, plain.2)
  else none

mutual

/-- A value at the front of a text between brackets, and what follows it. -/
def readFlow (bound : Nat) (cs : List Char) : Option (Value × List Char) :=
  match bound with
  | 0 => none
  | bound + 1 =>
    match cs with
    | '[' :: rest => (readFlowItems bound (skipFlow false rest)).map (fun r => (.list r.1, r.2))
    | '\x7b' :: rest =>
      (readFlowFields bound (skipFlow false rest)).map (fun r =>
        (.object (Fields.distinct r.1), r.2))
    | other => readInnerScalar other

/-- A value behind a colon, or nothing where the pair ends. -/
def readFlowValue (bound : Nat) (cs : List Char) : Option (Value × List Char) :=
  match bound with
  | 0 => none
  | bound + 1 =>
    match skipFlow false cs with
    | ',' :: rest => some (.null, ',' :: rest)
    | ']' :: rest => some (.null, ']' :: rest)
    | '\x7d' :: rest => some (.null, '\x7d' :: rest)
    | other => readFlow bound other

/-- The items of a list up to its closing bracket. -/
def readFlowItems (bound : Nat) (cs : List Char) : Option (List Value × List Char) :=
  match bound with
  | 0 => none
  | bound + 1 =>
    match cs with
    | ']' :: rest => some ([], rest)
    | other =>
      match readFlow bound other with
      | none => none
      | some (first, rest) =>
        let entry : Option (Value × List Char) :=
          match skipFlow false rest with
          | ':' :: value =>
            match keyText? first with
            | some key => (readFlowValue bound value).map (fun r => (.object [(key, r.1)], r.2))
            | none => none
          | after => some (first, after)
        match entry with
        | none => none
        | some (item, rest) =>
          match skipFlow false rest with
          | ']' :: after => some ([item], after)
          | ',' :: more =>
            (readFlowItems bound (skipFlow false more)).map (fun r => (item :: r.1, r.2))
          | _ => none

/-- The fields of a mapping up to its closing brace. -/
def readFlowFields (bound : Nat) (cs : List Char) : Option (Fields × List Char) :=
  match bound with
  | 0 => none
  | bound + 1 =>
    match cs with
    | '\x7d' :: rest => some ([], rest)
    | other =>
      match readInnerScalar other with
      | none => none
      | some (first, rest) =>
        match keyText? first with
        | none => none
        | some key =>
          let value : Option (Value × List Char) :=
            match skipFlow false rest with
            | ':' :: after => readFlowValue bound after
            | after => some (.null, after)
          match value with
          | none => none
          | some (item, rest) =>
            match skipFlow false rest with
            | '\x7d' :: after => some ([(key, item)], after)
            | ',' :: more =>
              (readFlowFields bound (skipFlow false more)).map (fun r =>
                ((key, item) :: r.1, r.2))
            | _ => none

end

end ShellSurvey.Yaml
