import ShellSurvey.Text.Blank

/-!
# Integer numerals

The reading of decimal integers. A numeral is an optional sign and digits, a single underscore
being allowed between two digits. Digits of any script count by their value where the caller
says so. Numerals longer than `digitLimit` are refused, since reading them takes too long.
-/

namespace ShellSurvey.Text.Numeral

/-- The most digits a numeral may have. -/
def digitLimit : Nat := 4300

/-- The code points of the digit zero, script by script; the other nine digits follow each. -/
def zeros : List Nat :=
  [0x30, 0x660, 0x6F0, 0x7C0, 0x966, 0x9E6, 0xA66, 0xAE6, 0xB66, 0xBE6, 0xC66, 0xCE6, 0xD66,
    0xDE6, 0xE50, 0xED0, 0xF20, 0x1040, 0x1090, 0x17E0, 0x1810, 0x1946, 0x19D0, 0x1A80, 0x1A90,
    0x1B50, 0x1BB0, 0x1C40, 0x1C50, 0xA620, 0xA8D0, 0xA900, 0xA9D0, 0xA9F0, 0xAA50, 0xABF0,
    0xFF10, 0x104A0, 0x10D30, 0x11066, 0x110F0, 0x11136, 0x111D0, 0x112F0, 0x11450, 0x114D0,
    0x11650, 0x116C0, 0x11730, 0x118E0, 0x11950, 0x11C50, 0x11D50, 0x11DA0, 0x11F50, 0x16A60,
    0x16AC0, 0x16B50, 0x1D7CE, 0x1D7D8, 0x1D7E2, 0x1D7EC, 0x1D7F6, 0x1E140, 0x1E2F0, 0x1E4F0,
    0x1E950, 0x1FBF0]

/-- The value of an ASCII digit. -/
def asciiDigit? (c : Char) : Option Nat :=
  if '0' ≤ c ∧ c ≤ '9' then some (c.toNat - 0x30) else none

/-- The value of a digit of any script. -/
def anyDigit? (c : Char) : Option Nat :=
  (zeros.find? (fun start => start ≤ c.toNat && c.toNat < start + 10)).map (c.toNat - ·)

/-- The number that digits denote, given what the digits before them denote. -/
def valueFrom (start : Nat) (digits : List Nat) : Nat :=
  digits.foldl (fun n d => 10 * n + d) start

/-- The number that digits denote. -/
def value (digits : List Nat) : Nat :=
  valueFrom 0 digits

/-- The digits at the front of a text, single underscores between them, and what follows. The
flag says whether the character before was a digit. -/
def digitRun (digit? : Char → Option Nat) : Bool → List Char → List Nat × List Char
  | _, [] => ([], [])
  | afterDigit, c :: rest =>
    match digit? c with
    | some d =>
      let run := digitRun digit? true rest
      (d :: run.1, run.2)
    | none =>
      if c = '_' && afterDigit && (rest.head?.bind digit?).isSome then digitRun digit? false rest
      else ([], c :: rest)

/-- Why a text is not a numeral. -/
inductive Refusal where
  /-- The text does not have the form of a numeral. -/
  | malformed
  /-- The numeral has this many digits, more than `digitLimit`. -/
  | tooLong (digits : Nat)
  deriving DecidableEq, Repr

/-- A sign at the front of a text, and what follows it. -/
def sign : List Char → Int × List Char
  | '-' :: rest => (-1, rest)
  | '+' :: rest => (1, rest)
  | rest => (1, rest)

/-- The integer that a text denotes, blanks around it left aside. -/
def read (cs : List Char) : Except Refusal Int :=
  let signed := sign (trim cs)
  let run := digitRun anyDigit? false signed.2
  if digitLimit < run.1.length then .error (.tooLong run.1.length)
  else if run.1.isEmpty || !run.2.isEmpty then .error .malformed
  else .ok (signed.1 * value run.1)

/-- The decimal digits of a natural number. -/
def ofNat (n : Nat) : List Char :=
  Nat.toDigits 10 n

/-- The sign and the decimal digits of an integer. -/
def ofInt : Int → List Char
  | .ofNat n => ofNat n
  | .negSucc n => '-' :: ofNat (n + 1)

/-- The decimal text of a natural number. -/
def natText (n : Nat) : String :=
  String.ofList (ofNat n)

/-- The decimal text of an integer. -/
def intText (n : Int) : String :=
  String.ofList (ofInt n)

end ShellSurvey.Text.Numeral
