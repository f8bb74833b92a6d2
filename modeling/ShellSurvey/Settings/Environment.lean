import ShellSurvey.Text.Case
import ShellSurvey.Value.Json.Reader
import ShellSurvey.Value.Overlay

/-!
# Settings from the environment

A variable whose name starts with `SHELLFACTS__`, in any case, sets a record of settings as a
JSON object, or a single setting if further names follow behind double underscores. Single
settings go over the object. The list of outputs is written as JSON too; all other single
settings are texts.
-/

namespace ShellSurvey.Settings

/-- Variables by name, in order. -/
abbrev Environment := List (String × String)

/-- What the names of all variables start with. -/
def lead : List Char := "shellfacts__".toList

/-- The parts of a text between double underscores, given the last part so far, reversed. -/
def nameParts (part : List Char) : List Char → List (List Char)
  | '_' :: '_' :: rest => part.reverse :: nameParts [] rest
  | c :: rest => nameParts (c :: part) rest
  | [] => [part.reverse]

/-- Variables with names in small letters; of two with one name the later counts, at the place of
the first. -/
def lowered (environment : Environment) : Environment :=
  environment.foldl (fun acc entry =>
    let name := String.ofList (Text.lower entry.1.toList)
    if acc.any (fun other => other.1 == name) then
      acc.map (fun other => if other.1 == name then (name, entry.2) else other)
    else acc ++ [(name, entry.2)]) []

/-- The value that a variable gives to a single setting; none if it is not readable. -/
def singleValue? (record : String) (path : List String) (text : String) : Option Value :=
  if record == "logging" && path == ["outputs"] && !text.isEmpty then Json.parse? text.toList
  else some (.text text)

/-- Sets the value at a path; where a part of the path is no object, nothing changes. -/
def putPath (fields : Fields) (path : List String) (value : Value) : Fields :=
  match path with
  | [] => fields
  | [name] => fields.put name value
  | name :: rest =>
    match fields.get? name with
    | none => fields.put name (.object (putPath [] rest value))
    | some (.object inner) => fields.put name (.object (putPath inner rest value))
    | some _ => fields

/-- The single settings of a record; none if one of them is not readable. -/
def singles? (record : String) (environment : Environment) : Option Fields :=
  environment.foldl (fun acc entry =>
    acc.bind (fun fields =>
      if lead.isPrefixOf entry.1.toList then
        match (nameParts [] (entry.1.toList.drop lead.length)).map String.ofList with
        | first :: name :: names =>
          if first == record then
            (singleValue? record (name :: names) entry.2).map (putPath fields (name :: names))
          else some fields
        | _ => some fields
      else some fields)) (some [])

/-- The names of the settings in each record. -/
def settingNames : String → List String
  | "logging" => ["level", "outputs"]
  | "extraction" =>
    ["max_file_size_mb", "include_strings", "include_dynamic_imports", "attach_doc_comments"]
  | _ => []

/-- The fields of a record with the names of its settings in their usual case. -/
def canonical (record : String) (fields : Fields) : Fields :=
  fields.foldl (fun acc entry =>
    let name := Text.lower entry.1.toList
    match (settingNames record).find? (fun known => known.toList == name) with
    | some known => acc.put known entry.2
    | none => acc.put entry.1 entry.2) []

/-- What the environment gives to a record: none if a variable is not readable, else the value,
if there is one. -/
def recordValue? (record : String) (environment : Environment) : Option (Option Value) :=
  let name := String.ofList lead ++ record
  match environment.find? (fun entry => entry.1 == name) with
  | none =>
    (singles? record environment).map (fun fields =>
      if fields.isEmpty then none else some (.object (canonical record fields)))
  | some entry =>
    match Json.parse? entry.2.toList with
    | none => none
    | some .null => some none
    | some (.object fields) =>
      (singles? record environment).map (fun more =>
        some (.object (canonical record (Fields.overlay fields more))))
    | some other => some (some other)

/-- The settings in the environment; the name of the record that is not readable otherwise. -/
def ofEnvironment (environment : Environment) : Except String Fields :=
  let known := lowered environment
  ["logging", "extraction"].foldl (fun acc record =>
    match acc with
    | .error e => .error e
    | .ok fields =>
      match recordValue? record known with
      | none => .error record
      | some none => .ok fields
      | some (some value) => .ok (fields ++ [(record, value)])) (.ok [])

end ShellSurvey.Settings
