import ShellSurvey.Param.Scan
import ShellSurvey.Text.Numeral
import ShellSurvey.Text.Quoted

/-!
# Parameters

The parameters of a shell function, as its body implies them: `$1` up to the highest index
that is referred to, gaps filled, and then a parameter for all remaining arguments if some
reference asks for them. A parameter with a default text is optional; the first default that
is not empty counts.
-/

namespace ShellSurvey

/-- A parameter of a shell function. -/
structure Param where
  /-- The name, with its `$`. -/
  name : String
  /-- Whether it may be left out. -/
  optional : Bool := false
  /-- Whether it stands for all remaining arguments. -/
  rest : Bool := false
  /-- The default text. -/
  fallback : Option String := none
  deriving DecidableEq, Repr

namespace Param

/-- What the references of a body imply. -/
structure Signature where
  /-- The highest index. -/
  count : Nat := 0
  /-- The default texts by index; the first of an index counts. -/
  fallbacks : List (Nat × List Char) := []
  /-- The first marker for all remaining arguments. -/
  rest : Option RestMarker := none
  deriving DecidableEq, Repr

namespace Signature

/-- The default text of an index. -/
def fallback? (s : Signature) (index : Nat) : Option (List Char) :=
  (s.fallbacks.find? (fun entry => entry.1 == index)).map (·.2)

/-- Take one more reference into account. -/
def add (s : Signature) : Reference → Signature
  | .rest marker => { s with rest := s.rest.or (some marker) }
  | .positional index none => { s with count := max s.count index }
  | .positional index (some text) =>
    { s with
      count := max s.count index
      fallbacks :=
        if text.isEmpty || (s.fallback? index).isSome then s.fallbacks
        else s.fallbacks ++ [(index, text)] }

/-- What a list of references implies. -/
def ofReferences (references : List Reference) : Signature :=
  references.foldl add {}

/-- The parameter of an index. -/
def positional (s : Signature) (index : Nat) : Param where
  name := String.ofList ('$' :: Text.Numeral.ofNat index)
  optional := (s.fallback? index).isSome
  fallback := (s.fallback? index).map String.ofList

/-- The parameter for all remaining arguments. -/
def remaining (marker : RestMarker) : Param where
  name := String.ofList ['$', marker.char]
  optional := true
  rest := true

/-- The parameters: the positional ones in order, then the one for all remaining. -/
def params (s : Signature) : List Param :=
  (List.range s.count).map (fun i => s.positional (i + 1)) ++ (s.rest.map remaining).toList

end Signature

/-- The parameters that a body implies. -/
def infer (body : List Char) : List Param :=
  (Signature.ofReferences ((scanOnce body).map (·.reference))).params

/-! ### Index and label -/

/-- Why the name of a parameter has no index. -/
inductive IndexError where
  /-- What follows the first character is no numeral. -/
  | malformed (text : String)
  /-- The numeral has too many digits. -/
  | tooLong (digits : Nat)
  deriving DecidableEq, Repr

/-- The most characters of a bad numeral that a message shows. -/
def shownLimit : Nat := 200

/-- The wording of an error. -/
def IndexError.message : IndexError → String
  | .malformed text =>
    "invalid literal for int() with base 10: " ++
      String.ofList ((Text.quoted text.toList).take shownLimit)
  | .tooLong digits =>
    "Exceeds the limit (4300 digits) for integer string conversion: value has " ++
      Text.Numeral.natText digits ++
      " digits; use sys.set_int_max_str_digits() to increase the limit"

/-- The index of a parameter; the one for all remaining arguments has none. -/
def index (p : Param) : Except IndexError (Option Int) :=
  if p.rest then .ok none
  else
    let numeral := p.name.toList.drop 1
    match Text.Numeral.read numeral with
    | .ok n => .ok (some n)
    | .error .malformed => .error (.malformed (String.ofList numeral))
    | .error (.tooLong digits) => .error (.tooLong digits)

/-- A parameter as a table shows it. -/
def label (p : Param) : String :=
  if p.rest then p.name ++ "..."
  else
    match p.fallback with
    | some text => p.name ++ "=" ++ text
    | none => p.name

/-- The parameters as a table shows them. -/
def labels (params : List Param) : String :=
  ", ".intercalate (params.map label)

end Param

end ShellSurvey
