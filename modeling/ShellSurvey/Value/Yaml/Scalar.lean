import ShellSurvey.Text.Numeral
import ShellSurvey.Value.Basic

/-!
# YAML scalars

What a scalar without quotes stands for: a truth value, nothing, a number, or else its own text.
Integers may be written in base two, eight, ten or sixteen, or as places of sixty; underscores
in them do not count. A fraction needs its point, and an exponent its sign.
-/

namespace ShellSurvey.Yaml

/-- The words for true. -/
def trueWords : List String :=
  ["yes", "Yes", "YES", "true", "True", "TRUE", "on", "On", "ON"]

/-- The words for false. -/
def falseWords : List String :=
  ["no", "No", "NO", "false", "False", "FALSE", "off", "Off", "OFF"]

/-- The words for nothing. -/
def nullWords : List String :=
  ["", "~", "null", "Null", "NULL"]

/-- The value of a digit in the given base. -/
def digit? (base : Nat) (c : Char) : Option Nat :=
  let n :=
    if '0' ≤ c ∧ c ≤ '9' then c.toNat - 0x30
    else if 'a' ≤ c ∧ c ≤ 'f' then c.toNat - 0x61 + 10
    else if 'A' ≤ c ∧ c ≤ 'F' then c.toNat - 0x41 + 10
    else base
  if n < base then some n else none

/-- The number that digits and underscores denote in the given base, if there are digits and
nothing else. -/
def natural? (base : Nat) (cs : List Char) : Option Nat :=
  let digits := cs.filter (· != '_')
  if digits.isEmpty then none
  else
    digits.foldl (fun acc c => acc.bind (fun n => (digit? base c).map (base * n + ·))) (some 0)

/-- Whether a text is one place of a number in base sixty. -/
def isPlace : List Char → Bool
  | [c] => c.isDigit
  | [c, d] => '0' ≤ c && c ≤ '5' && d.isDigit
  | _ => false

/-- The number that places of sixty denote. -/
def sexagesimal? (cs : List Char) : Option Nat :=
  match Text.splitWhere (· == ':') cs with
  | lead :: place :: places =>
    if (place :: places).all isPlace && (lead.head?.map (· != '0')).getD false then
      (place :: places).foldl (fun acc p =>
        acc.bind (fun n => (natural? 10 p).map (60 * n + ·))) (natural? 10 lead)
    else none
  | _ => none

/-- The natural number that a text denotes. -/
def magnitude? (cs : List Char) : Option Nat :=
  match cs with
  | ['0'] => some 0
  | '0' :: 'b' :: rest => natural? 2 rest
  | '0' :: 'x' :: rest => natural? 16 rest
  | '0' :: rest => natural? 8 ('0' :: rest)
  | c :: rest =>
    if c.isDigit then
      if rest.contains ':' then sexagesimal? cs else natural? 10 cs
    else none
  | [] => none

/-- The integer that a text denotes. -/
def integer? (cs : List Char) : Option Int :=
  let signed := Text.Numeral.sign cs
  (magnitude? signed.2).map (fun n => signed.1 * n)

/-- Whether a character may stand in the digits of a fraction. -/
def isFractionChar (c : Char) : Bool :=
  c.isDigit || c == '_'

/-- The exponent that ends a fraction. -/
def exponent? : List Char → Option Int
  | [] => some 0
  | e :: s :: rest =>
    if (e = 'e' ∨ e = 'E') ∧ (s = '+' ∨ s = '-') ∧ rest.all Char.isDigit then
      (natural? 10 rest).map (fun n => if s = '-' then -(n : Int) else n)
    else none
  | _ => none

/-- The fraction without sign that a text denotes. -/
def fraction? (negative : Bool) (cs : List Char) : Option Binary64 :=
  let whole := cs.takeWhile isFractionChar
  match cs.dropWhile isFractionChar with
  | '.' :: rest =>
    let digits := rest.takeWhile isFractionChar
    let starts (d : List Char) : Bool := (d.head?.map Char.isDigit).getD false
    if starts whole || (whole.isEmpty && starts digits) then
      match exponent? (rest.dropWhile isFractionChar) with
      | some e =>
        let places := digits.filter (· != '_')
        (natural? 10 (whole ++ places)).map (fun n =>
          Binary64.ofDecimal negative n (e - places.length))
      | none => none
    else none
  | _ => none

/-- The floating-point number that a text denotes. -/
def float? (cs : List Char) : Option Binary64 :=
  if [".nan", ".NaN", ".NAN"].contains (String.ofList cs) then some .nan
  else
    let signed := Text.Numeral.sign cs
    if [".inf", ".Inf", ".INF"].contains (String.ofList signed.2) then
      some (.infinite (signed.1 == -1))
    else if signed.2.length < cs.length && signed.2.head? == some '.' then none
    else fraction? (signed.1 == -1) signed.2

/-- What a scalar without quotes stands for. -/
def resolve (cs : List Char) : Value :=
  let text := String.ofList cs
  if trueWords.contains text then .bool true
  else if falseWords.contains text then .bool false
  else if nullWords.contains text then .null
  else
    match integer? cs with
    | some n => .int n
    | none =>
      match float? cs with
      | some x => .float x
      | none => .text text

end ShellSurvey.Yaml
