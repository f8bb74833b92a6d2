/-!
# Binary floating-point numbers of 64 bits

A finite number is a sign and `mantissa * 2 ^ exponent`. Numbers are read from decimals by
rounding the exact quotient to the nearest number, ties to the even mantissa, all in natural
arithmetic.
-/

namespace ShellSurvey

/-- A floating-point number of 64 bits. -/
inductive Binary64 where
  /-- The number `mantissa * 2 ^ exponent`, negated if the flag is set. -/
  | finite (negative : Bool) (mantissa : Nat) (exponent : Int)
  /-- An infinity. -/
  | infinite (negative : Bool)
  /-- Not a number. -/
  | nan
  deriving DecidableEq, Repr

namespace Binary64

/-- The quotient rounded to the nearest integer, a half to the even one. -/
def roundHalfEven (num den : Nat) : Nat :=
  let q := num / den
  let twice := 2 * (num % den)
  if twice < den then q
  else if den < twice then q + 1
  else if q % 2 = 0 then q
  else q + 1

/-- The quotient `num / den` over `2 ^ exponent`, as a numerator and a denominator. -/
def scaled (num den : Nat) (exponent : Int) : Nat × Nat :=
  match exponent with
  | .ofNat k => (num, den * Nat.pow 2 k)
  | .negSucc k => (num * Nat.pow 2 (k + 1), den)

/-- The least exponent. -/
def leastExponent : Int := -1074

/-- The greatest exponent. -/
def greatestExponent : Int := 971

/-- The exponent at which the floor of `num / den` has 53 bits, or the least one. -/
def exponentFor (num den : Nat) : Int :=
  let guess : Int := (Nat.log2 num : Int) - (Nat.log2 den : Int) - 53
  let parts := scaled num den guess
  let exponent := if parts.1 / parts.2 < Nat.pow 2 53 then guess else guess + 1
  max exponent leastExponent

/-- The number nearest to the quotient `num / den`. -/
def ofQuotient (negative : Bool) (num den : Nat) : Binary64 :=
  if num = 0 then .finite negative 0 leastExponent
  else
    let exponent := exponentFor num den
    let parts := scaled num den exponent
    let mantissa := roundHalfEven parts.1 parts.2
    let carried := if mantissa = Nat.pow 2 53 then (Nat.pow 2 52, exponent + 1)
      else (mantissa, exponent)
    if greatestExponent < carried.2 then .infinite negative
    else .finite negative carried.1 carried.2

/-- The number of decimal digits of a natural number. -/
def digitCount (n : Nat) : Nat :=
  (Nat.toDigits 10 n).length

/-- The number nearest to `coefficient * 10 ^ power`. Powers far outside the range are decided
by their size alone. -/
def ofDecimal (negative : Bool) (coefficient : Nat) (power : Int) : Binary64 :=
  if coefficient = 0 then .finite negative 0 leastExponent
  else if 400 < power + digitCount coefficient then .infinite negative
  else if power + digitCount coefficient < -400 then .finite negative 0 leastExponent
  else
    match power with
    | .ofNat k => ofQuotient negative (coefficient * Nat.pow 10 k) 1
    | .negSucc k => ofQuotient negative coefficient (Nat.pow 10 (k + 1))

/-- The integer that a number is, if it is one. -/
def toInt? : Binary64 → Option Int
  | .finite negative mantissa exponent =>
    let magnitude : Option Nat :=
      match exponent with
      | .ofNat k => some (mantissa * Nat.pow 2 k)
      | .negSucc k =>
        if mantissa % Nat.pow 2 (k + 1) = 0 then some (mantissa / Nat.pow 2 (k + 1)) else none
    magnitude.map (fun n => if negative then -(n : Int) else (n : Int))
  | .infinite _ => none
  | .nan => none

/-- Whether a number equals zero. -/
def isZero : Binary64 → Bool
  | .finite _ mantissa _ => mantissa == 0
  | _ => false

end Binary64

end ShellSurvey
