import ShellSurvey.Decimal.Binary64

/-!
# Shortest decimals

The text of a floating-point number: the fewest digits that read back as the same number, and
of those the ones nearest to it. `shortest?` searches the decimal grids of 1, 2, … 17 digits
and tests the two neighbours of the number on each grid by reading them back.
-/

namespace ShellSurvey.Binary64

/-- A decimal `digits * 10 ^ power`. -/
structure Decimal where
  /-- The digits, read as one number. -/
  digits : Nat
  /-- The power of ten. -/
  power : Int
  deriving DecidableEq, Repr

/-- The magnitude of a finite number as a quotient of natural numbers. -/
def quotient (mantissa : Nat) (exponent : Int) : Nat × Nat :=
  match exponent with
  | .ofNat k => (mantissa * Nat.pow 2 k, 1)
  | .negSucc k => (mantissa, Nat.pow 2 (k + 1))

/-- The quotient over `10 ^ power`, as a numerator and a denominator. -/
def overPower (num den : Nat) (power : Int) : Nat × Nat :=
  match power with
  | .ofNat k => (num, den * Nat.pow 10 k)
  | .negSucc k => (num * Nat.pow 10 (k + 1), den)

/-- The greatest power of ten that is not above the quotient. -/
def leadingPower (num den : Nat) : Int :=
  let guess : Int := (digitCount num : Int) - (digitCount den : Int)
  let parts := overPower num den guess
  if parts.2 ≤ parts.1 then guess else guess - 1

/-- The neighbour of the number on the grid of `10 ^ power` that reads back, the nearer one if
both do and the even one on a tie. -/
def onGrid? (mantissa : Nat) (exponent : Int) (power : Int) : Option Decimal :=
  let value := quotient mantissa exponent
  let parts := overPower value.1 value.2 power
  let below := parts.1 / parts.2
  let twice := 2 * (parts.1 % parts.2)
  let readsBack (n : Nat) : Bool :=
    decide (ofDecimal false n power = .finite false mantissa exponent)
  match readsBack below, readsBack (below + 1) with
  | true, true =>
    let nearer := if twice < parts.2 then below
      else if parts.2 < twice then below + 1
      else if below % 2 = 0 then below else below + 1
    some ⟨nearer, power⟩
  | true, false => some ⟨below, power⟩
  | false, true => some ⟨below + 1, power⟩
  | false, false => none

/-- The shortest decimal that reads back as the given number. -/
def shortest? (mantissa : Nat) (exponent : Int) : Option Decimal :=
  let value := quotient mantissa exponent
  let lead := leadingPower value.1 value.2
  (List.range 17).findSome? (fun (n : Nat) => onGrid? mantissa exponent (lead - n))

/-- The digits without the zeros at their end, and the power that makes up for them. -/
def stripZeros : Nat → Decimal → Decimal
  | 0, d => d
  | fuel + 1, d =>
    if d.digits % 10 = 0 ∧ d.digits ≠ 0 then stripZeros fuel ⟨d.digits / 10, d.power + 1⟩ else d

/-- How the digits of a number are laid out. -/
structure Layout where
  /-- The least place of the leading digit that is written without an exponent. -/
  least : Int
  /-- The first place of the leading digit that is written with an exponent again. -/
  limit : Int
  /-- The fewest digits of an exponent. -/
  exponentWidth : Nat

/-- Places from `-4` up to `15` are written out, and exponents have at least two digits. -/
def layout : Layout := ⟨-4, 16, 2⟩

/-- The text with zeros in front up to the given length. -/
def zeroPadded (width : Nat) (cs : List Char) : List Char :=
  List.replicate (width - cs.length) '0' ++ cs

/-- The digits of a decimal laid out. -/
def Layout.write (form : Layout) (d : Decimal) : List Char :=
  let digits := Nat.toDigits 10 d.digits
  let place : Int := d.power + digits.length - 1
  if place < form.least ∨ form.limit ≤ place then
    let exponent := zeroPadded form.exponentWidth (Nat.toDigits 10 place.natAbs)
    let mantissa :=
      match digits with
      | [] => []
      | [lead] => [lead]
      | lead :: rest => lead :: '.' :: rest
    mantissa ++ ['e', if place < 0 then '-' else '+'] ++ exponent
  else if place < 0 then
    ['0', '.'] ++ List.replicate (place.natAbs - 1) '0' ++ digits
  else
    let whole := place.toNat + 1
    let padded := digits ++ List.replicate (whole - digits.length) '0'
    let fraction := padded.drop whole
    padded.take whole ++ '.' :: (if fraction.isEmpty then ['0'] else fraction)

/-- The text of a number. -/
def render : Binary64 → List Char
  | .finite negative mantissa exponent =>
    let digits :=
      if mantissa = 0 then ['0', '.', '0']
      else
        match shortest? mantissa exponent with
        | some d => layout.write (stripZeros 400 d)
        | none => []
    if negative then '-' :: digits else digits
  | .infinite negative => if negative then "-inf".toList else "inf".toList
  | .nan => "nan".toList

end ShellSurvey.Binary64
