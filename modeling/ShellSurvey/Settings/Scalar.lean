import ShellSurvey.Path
import ShellSurvey.Settings.Basic
import ShellSurvey.Settings.Check
import ShellSurvey.Text.Case

/-!
# Checking single settings

Integers, flags, names and destinations. Numbers and texts that plainly stand for an integer or
a flag are taken for it.
-/

namespace ShellSurvey.Settings

/-! ### Integers -/

/-- The integers of 64 bits lie strictly below this magnitude. -/
def wordBound : Int := Int.pow 2 63

/-- Whether a character is white space around a numeral. -/
def isSpace (c : Char) : Bool :=
  Text.isBlank c && !(0x1C ≤ c.toNat && c.toNat ≤ 0x1F)

/-- A text without the white space at both ends. -/
def strip (text : List Char) : List Char :=
  ((text.dropWhile isSpace).reverse.dropWhile isSpace).reverse

/-- Whether a text is empty or a point followed by at least one zero and nothing else. -/
def isZeroFraction : List Char → Bool
  | [] => true
  | '.' :: '0' :: rest => rest.all (· == '0')
  | _ => false

/-- The integer that a text stands for. -/
def integerOfText (text : List Char) : Except Problem Int :=
  let signed := Text.Numeral.sign (strip text)
  let run := Text.Numeral.digitRun Text.Numeral.asciiDigit? false signed.2
  if run.1.isEmpty || !isZeroFraction run.2 then .error .integerText
  else if Text.Numeral.digitLimit < run.1.length then .error .integerSize
  else .ok (signed.1 * Text.Numeral.value run.1)

/-- The integer that a floating-point number is. -/
def integerOfFloat (x : Binary64) : Except Problem Int :=
  match x with
  | .finite _ _ _ =>
    match x.toInt? with
    | some n =>
      if -wordBound < n ∧ n < wordBound then .ok n else .error .integerSize
    | none => .error .integerFraction
  | _ => .error .integerInfinite

/-- The integer that data stands for. -/
def integer (value : Value) : Except Problem Int :=
  match value with
  | .int n => .ok n
  | .bool b => .ok (if b then 1 else 0)
  | .float x => integerOfFloat x
  | .text text => integerOfText text.toList
  | _ => .error .integerKind

/-- Checks a file size, which is at least one. -/
def checkSize (value : Value) : Checked Nat :=
  match integer value with
  | .error problem => .problem problem value
  | .ok n => if 0 < n then .valid n.toNat else .problem (.sizeNotPositive n) value

/-! ### Flags -/

/-- The texts that mean true. -/
def trueTexts : List String := ["true", "t", "yes", "y", "on", "1"]

/-- The texts that mean false. -/
def falseTexts : List String := ["false", "f", "no", "n", "off", "0"]

/-- The flag that an integer stands for. -/
def flagOfInt (n : Int) : Except Problem Bool :=
  if n = 0 then .ok false
  else if n = 1 then .ok true
  else if -wordBound ≤ n ∧ n < wordBound then .error .flagText
  else .error .flagKind

/-- The flag that a text stands for, in any case. -/
def flagOfText (text : String) : Except Problem Bool :=
  let low := String.ofList (text.toList.map Text.lowerAscii)
  if trueTexts.contains low then .ok true
  else if falseTexts.contains low then .ok false
  else .error .flagText

/-- The flag that data stands for. -/
def flag (value : Value) : Except Problem Bool :=
  match value with
  | .bool b => .ok b
  | .int n => flagOfInt n
  | .float x =>
    match x.toInt? with
    | some n => flagOfInt n
    | none => .error .flagKind
  | .text text => flagOfText text
  | _ => .error .flagKind

/-- Checks a flag. -/
def checkFlag (value : Value) : Checked Bool :=
  match flag value with
  | .error problem => .problem problem value
  | .ok b => .valid b

/-! ### Names -/

/-- Checks the name of a level. -/
def checkLevel (value : Value) : Checked Level :=
  match value with
  | .text name =>
    match Level.ofName? name with
    | some level => .valid level
    | none => .problem .levelName value
  | _ => .problem .levelName value

/-- Checks the name of a level that may be left open. -/
def checkOptionalLevel (value : Value) : Checked (Option Level) :=
  match value with
  | .null => .valid none
  | _ => (checkLevel value).map some

/-- Checks the name of a format. -/
def checkFormat (value : Value) : Checked Format :=
  match value with
  | .text "json" => .valid .json
  | .text "console" => .valid .console
  | _ => .problem .formatName value

/-! ### Destinations -/

/-- The names of the standard streams. -/
def streams : List String := ["stderr", "stdout"]

/-- The home directories that are known. -/
structure Homes where
  /-- One's own. -/
  own : String
  /-- Those of all accounts, by name. -/
  accounts : List (String × String) := []
  deriving DecidableEq, Repr

/-- A home directory where no account is known. -/
instance : Coe String Homes where
  coe own := { own := own }

/-- The home directory of the account of that name; one's own without a name. -/
def Homes.find? (homes : Homes) (name : List Char) : Option String :=
  if name.isEmpty then some homes.own else homes.accounts.lookup (String.ofList name)

/-- The path of a home directory. Slashes at its end do not count, and with nothing before them it
is the root directory. There is none if it starts with the home sign itself. -/
def homePath? (home : String) : Option Path :=
  let front := (home.toList.reverse.dropWhile (· == '/')).reverse
  if front.head? = some '~' then none
  else some (Path.ofChars (if front.isEmpty then ['/'] else front))

/-- A path whose first part is the home sign, alone or before the name of an account, with the home
directory in its place; none if that is not known. -/
def expandHome? (homes : Homes) (path : Path) : Option Path :=
  match path.root, path.parts with
  | .here, ('~' :: name) :: rest =>
    ((homes.find? name).bind homePath?).map (fun base =>
      { base with parts := base.parts ++ rest })
  | _, _ => some path

/-- Checks a destination: a standard stream, or an absolute path in its normal form. -/
def checkDestination (homes : Homes) (value : Value) : Checked String :=
  match value with
  | .text text =>
    if streams.contains text then .valid text
    else
      match expandHome? homes (Path.ofString text) with
      | none => .homeless
      | some path =>
        if path.isAbsolute then .valid path.text else .problem (.relativePath text) value
  | _ => .problem .textKind value

end ShellSurvey.Settings
