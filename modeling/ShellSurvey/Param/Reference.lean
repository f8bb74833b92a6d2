/-!
# References to parameters

A shell function declares no parameters; its body refers to them. A reference is one of

* `$` and the longest run of digits after it;
* `$@` or `$*`, all remaining arguments;
* `$` and braces around digits, around `@` or `*`, or around digits, a `-` or `:-`, and a
  default text that runs up to the first closing brace not hidden by a backslash.

`recognise?` reads the reference at the front of a text and says how long it is. It is made of
`opening?`, which reads as far as the default text, and `closingBrace?`, which finds its end;
the two are apart because a search that found no closing brace need not be made again.
-/

namespace ShellSurvey.Param

/-- How the remaining arguments are referred to. -/
inductive RestMarker where
  /-- `$@`. -/
  | separate
  /-- `$*`. -/
  | joined
  deriving DecidableEq, Repr

/-- The character of a marker. -/
def RestMarker.char : RestMarker → Char
  | .separate => '@'
  | .joined => '*'

/-- The marker of a character. -/
def marker? (c : Char) : Option RestMarker :=
  if c = '@' then some .separate
  else if c = '*' then some .joined
  else none

/-- A reference to one parameter or to all remaining ones. -/
inductive Reference where
  /-- The parameter of that index, with the default text if one is written. -/
  | positional (index : Nat) (fallback : Option (List Char))
  /-- All remaining parameters. -/
  | rest (marker : RestMarker)
  deriving DecidableEq, Repr

/-- The most digits of an index, leading zeros left aside. -/
def indexLimit : Nat := 4300

/-- The number that ASCII digits denote. -/
def digitsValue (digits : List Char) : Nat :=
  digits.foldl (fun n c => 10 * n + (c.toNat - '0'.toNat)) 0

/-- The index that digits denote; an overlong one denotes none. -/
def index? (digits : List Char) : Option Nat :=
  let significant := digits.dropWhile (· == '0')
  if indexLimit < significant.length then none else some (digitsValue significant)

/-- What stands at the front of a text that may be a reference. -/
inductive Opening where
  /-- A whole reference of that length. -/
  | whole (reference : Reference) (length : Nat)
  /-- The first characters of a reference with a default text, as many as `length`. -/
  | default (index : Nat) (length : Nat)
  deriving DecidableEq, Repr

/-- The opening after `$` and an opening brace. -/
def braced? (text : List Char) : Option Opening :=
  match text with
  | [] => none
  | c :: after =>
    match marker? c with
    | some marker => if after.head? = some '\x7d' then some (.whole (.rest marker) 4) else none
    | none =>
      let digits := text.takeWhile Char.isDigit
      if digits.isEmpty then none
      else
        match index? digits, text.dropWhile Char.isDigit with
        | some index, '\x7d' :: _ => some (.whole (.positional index none) (digits.length + 3))
        | some index, ':' :: '-' :: _ => some (.default index (digits.length + 4))
        | some index, '-' :: _ => some (.default index (digits.length + 3))
        | _, _ => none

/-- The opening at the front of a text. -/
def opening? (text : List Char) : Option Opening :=
  match text with
  | '$' :: c :: after =>
    if c.isDigit then
      let digits := (c :: after).takeWhile Char.isDigit
      (index? digits).map (fun index => .whole (.positional index none) (digits.length + 1))
    else
      match marker? c with
      | some marker => some (.whole (.rest marker) 2)
      | none => if c = '\x7b' then braced? after else none
  | _ => none

/-- The text before the first closing brace that no backslash hides. A backslash hides the
character after it, whatever that is. -/
def closingBrace? : List Char → Option (List Char)
  | [] => none
  | ['\\'] => none
  | '\\' :: c :: after => (closingBrace? after).map (fun before => '\\' :: c :: before)
  | c :: after => if c = '\x7d' then some [] else (closingBrace? after).map (c :: ·)

/-- The reference at the front of a text, and its length. -/
def recognise? (text : List Char) : Option (Reference × Nat) :=
  match opening? text with
  | some (.whole reference length) => some (reference, length)
  | some (.default index length) =>
    (closingBrace? (text.drop length)).map (fun fallback =>
      (.positional index (some fallback), length + fallback.length + 1))
  | none => none

end ShellSurvey.Param
