import ShellSurvey.Decimal.Binary64

/-!
# Values

The data that settings files, environments and answers are made of. An object keeps its fields
in the order in which their names first came, and a field put again keeps its place.
-/

namespace ShellSurvey

/-- A piece of data. -/
inductive Value where
  /-- The absent value. -/
  | null
  /-- A truth value. -/
  | bool (b : Bool)
  /-- An integer of any size. -/
  | int (n : Int)
  /-- A floating-point number. -/
  | float (x : Binary64)
  /-- A text. -/
  | text (s : String)
  /-- A list of values. -/
  | list (items : List Value)
  /-- Named values in order. -/
  | object (fields : List (String × Value))
  deriving Repr, Inhabited

/-- Named values in order. -/
abbrev Fields := List (String × Value)

namespace Fields

/-- The value of the first field of that name. -/
def get? (fields : Fields) (name : String) : Option Value :=
  (fields.find? (fun field => field.1 == name)).map (·.2)

/-- The names of the fields in order. -/
def names (fields : Fields) : List String :=
  fields.map (·.1)

/-- Give a field a value: in its place if there is such a field, else at the end. -/
def put (fields : Fields) (name : String) (value : Value) : Fields :=
  match fields with
  | [] => [(name, value)]
  | field :: rest =>
    if field.1 = name then (name, value) :: rest else field :: put rest name value

/-- Put the fields one after the other. -/
def putAll (fields more : Fields) : Fields :=
  more.foldl (fun acc field => acc.put field.1 field.2) fields

/-- Every name once, in the place where it first came and with the value it last had. -/
def distinct (fields : Fields) : Fields :=
  putAll [] fields

end Fields

namespace Value

/-- A natural number as a value. -/
def nat (n : Nat) : Value :=
  .int n

/-- A text, or null. -/
def optText : Option String → Value
  | some s => .text s
  | none => .null

/-- The fields of an object. -/
def fields? : Value → Option Fields
  | .object fields => some fields
  | _ => none

/-- The field of an object. -/
def field? (v : Value) (name : String) : Option Value :=
  v.fields?.bind (·.get? name)

/-- Whether a value counts as holding nothing: null, false, zero, or something empty. -/
def isFalsy : Value → Bool
  | .null => true
  | .bool b => !b
  | .int n => n == 0
  | .float x => x.isZero
  | .text s => s.isEmpty
  | .list items => items.isEmpty
  | .object fields => fields.isEmpty

end Value

end ShellSurvey
