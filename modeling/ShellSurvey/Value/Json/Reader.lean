import ShellSurvey.Value.Basic
import ShellSurvey.Text.Numeral

/-!
# Reading JSON

`Json.parse?` reads one JSON value with blanks around it and nothing else. A name that comes
twice in an object keeps its first place and takes its last value. Besides the numbers of the
format the words `NaN`, `Infinity` and `-Infinity` are read as floating-point numbers.

The readers for values, lists and objects call each other under a bound on their depth. Every
call reads at least one character, so the length of the text is bound enough.
-/

namespace ShellSurvey.Json

/-- The blanks between the parts of a value. -/
def isSpace (c : Char) : Bool :=
  c == ' ' || c == '\t' || c == '\n' || c == '\r'

/-- The text after its blanks. -/
def skipSpace (cs : List Char) : List Char :=
  cs.dropWhile isSpace

/-- The value of a hexadecimal digit. -/
def hexDigit? (c : Char) : Option Nat :=
  if '0' ≤ c ∧ c ≤ '9' then some (c.toNat - 0x30)
  else if 'a' ≤ c ∧ c ≤ 'f' then some (c.toNat - 0x61 + 10)
  else if 'A' ≤ c ∧ c ≤ 'F' then some (c.toNat - 0x41 + 10)
  else none

/-- The number that hexadecimal digits denote. -/
def hexValue? (cs : List Char) : Option Nat :=
  cs.foldl (fun acc c => acc.bind (fun n => (hexDigit? c).map (16 * n + ·))) (some 0)

/-- The character that an escape letter stands for. -/
def escaped? (c : Char) : Option Char :=
  if c = '"' ∨ c = '\\' ∨ c = '/' then some c
  else if c = 'b' then some '\x08'
  else if c = 'f' then some '\x0c'
  else if c = 'n' then some '\n'
  else if c = 'r' then some '\r'
  else if c = 't' then some '\t'
  else none

/-- What an unpaired half of a surrogate pair is read as. -/
def unpaired : Char := '�'

/-- The characters read so far, last first, after a pending half has turned out unpaired. -/
def settle (half : Option Nat) (acc : List Char) : List Char :=
  match half with
  | none => acc
  | some _ => unpaired :: acc

/-- The effect of a code unit on a pending first half and the characters read so far. -/
def addUnit (half : Option Nat) (acc : List Char) (unit : Nat) : Option Nat × List Char :=
  if 0xD800 ≤ unit ∧ unit < 0xDC00 then (some unit, settle half acc)
  else if 0xDC00 ≤ unit ∧ unit < 0xE000 then
    match half with
    | some first =>
      (none, Char.ofNat (0x10000 + (first - 0xD800) * 0x400 + (unit - 0xDC00)) :: acc)
    | none => (none, unpaired :: acc)
  else (none, Char.ofNat unit :: settle half acc)

/-- The rest of a quoted text and what follows its closing quote. `acc` holds the characters
read so far, last first, and `half` a first half of a surrogate pair just read. -/
def readText (half : Option Nat) (acc : List Char) :
    List Char → Option (List Char × List Char)
  | [] => none
  | '"' :: rest => some ((settle half acc).reverse, rest)
  | '\\' :: 'u' :: a :: b :: c :: d :: rest =>
    match hexValue? [a, b, c, d] with
    | some unit =>
      let next := addUnit half acc unit
      readText next.1 next.2 rest
    | none => none
  | '\\' :: c :: rest =>
    match escaped? c with
    | some e => readText none (e :: settle half acc) rest
    | none => none
  | c :: rest =>
    if c.toNat < 0x20 ∨ c = '\\' then none else readText none (c :: settle half acc) rest

/-- Whether a character is an ASCII digit. -/
def isDigit (c : Char) : Bool :=
  (Text.Numeral.asciiDigit? c).isSome

/-- The number that a run of ASCII digits denotes. -/
def digitsValue (cs : List Char) : Nat :=
  Text.Numeral.value (cs.filterMap Text.Numeral.asciiDigit?)

/-- The digits of a fraction at the front of a text. -/
def readFraction : List Char → List Char × List Char
  | '.' :: rest =>
    match rest.takeWhile isDigit with
    | [] => ([], '.' :: rest)
    | digits => (digits, rest.dropWhile isDigit)
  | rest => ([], rest)

/-- The exponent at the front of a text. -/
def readExponent : List Char → Option Int × List Char
  | c :: rest =>
    if c = 'e' ∨ c = 'E' then
      let signed := Text.Numeral.sign rest
      match signed.2.takeWhile isDigit with
      | [] => (none, c :: rest)
      | digits => (some (signed.1 * digitsValue digits), signed.2.dropWhile isDigit)
    else (none, c :: rest)
  | [] => (none, [])

/-- A number without sign at the front of a text. -/
def readMagnitude (negative : Bool) (cs : List Char) : Option (Value × List Char) :=
  match cs.takeWhile isDigit with
  | [] => none
  | lead :: more =>
    let whole := if lead = '0' then ['0'] else lead :: more
    let rest := cs.drop whole.length
    let fraction := readFraction rest
    let exponent := readExponent fraction.2
    if fraction.1.isEmpty && exponent.1.isNone then
      let n : Int := digitsValue whole
      some (.int (if negative then -n else n), rest)
    else
      let power : Int := exponent.1.getD 0 - fraction.1.length
      some (.float (Binary64.ofDecimal negative (digitsValue (whole ++ fraction.1)) power),
        exponent.2)

/-- The words that stand for values. -/
def literals : List (List Char × Value) :=
  [(['n', 'u', 'l', 'l'], .null), (['t', 'r', 'u', 'e'], .bool true),
    (['f', 'a', 'l', 's', 'e'], .bool false), (['N', 'a', 'N'], .float .nan),
    (['I', 'n', 'f', 'i', 'n', 'i', 't', 'y'], .float (.infinite false)),
    (['-', 'I', 'n', 'f', 'i', 'n', 'i', 't', 'y'], .float (.infinite true))]

/-- A word or a number at the front of a text. -/
def readScalar (cs : List Char) : Option (Value × List Char) :=
  match literals.find? (fun entry => entry.1.isPrefixOf cs) with
  | some entry => some (entry.2, cs.drop entry.1.length)
  | none =>
    match cs with
    | '-' :: rest => readMagnitude true rest
    | rest => readMagnitude false rest

mutual

/-- A value at the front of a text, and what follows it. -/
def readValue (bound : Nat) (cs : List Char) : Option (Value × List Char) :=
  match bound with
  | 0 => none
  | bound + 1 =>
    match cs with
    | '"' :: rest => (readText none [] rest).map (fun r => (.text (String.ofList r.1), r.2))
    | '[' :: rest =>
      match skipSpace rest with
      | ']' :: after => some (.list [], after)
      | inner => (readItems bound inner).map (fun r => (.list r.1, r.2))
    | '\x7b' :: rest =>
      match skipSpace rest with
      | '\x7d' :: after => some (.object [], after)
      | inner => (readFields bound inner).map (fun r => (.object (Fields.distinct r.1), r.2))
    | other => readScalar other

/-- The items of a list up to its closing bracket, at least one of them. -/
def readItems (bound : Nat) (cs : List Char) : Option (List Value × List Char) :=
  match bound with
  | 0 => none
  | bound + 1 =>
    match readValue bound cs with
    | none => none
    | some (item, rest) =>
      match skipSpace rest with
      | ']' :: after => some ([item], after)
      | ',' :: more => (readItems bound (skipSpace more)).map (fun r => (item :: r.1, r.2))
      | _ => none

/-- The fields of an object up to its closing brace, at least one of them. -/
def readFields (bound : Nat) (cs : List Char) : Option (Fields × List Char) :=
  match bound with
  | 0 => none
  | bound + 1 =>
    match cs with
    | '"' :: quoted =>
      match readText none [] quoted with
      | none => none
      | some (name, rest) =>
        match skipSpace rest with
        | ':' :: value =>
          match readValue bound (skipSpace value) with
          | none => none
          | some (item, rest) =>
            let field := (String.ofList name, item)
            match skipSpace rest with
            | '\x7d' :: after => some ([field], after)
            | ',' :: more =>
              (readFields bound (skipSpace more)).map (fun r => (field :: r.1, r.2))
            | _ => none
        | _ => none
    | _ => none

end

/-- The value that a text holds, if it holds one and nothing else. -/
def parse? (cs : List Char) : Option Value :=
  match readValue (cs.length + 1) (skipSpace cs) with
  | some (value, rest) => if (skipSpace rest).isEmpty then some value else none
  | none => none

end ShellSurvey.Json
