import ShellSurvey.Value.Display

/-!
# Message templates

A message of another program may hold places for arguments: a percent sign, perhaps the name of an
argument in parentheses, flags, a width, a precision, and a letter that says how the argument is
written. `message` puts the arguments into their places. There is no message if a place is not well
formed, if an argument is missing or of the wrong kind, or if one is left over.

A template is read character by character; `Stage` says which part of a place is being read.
-/

namespace ShellSurvey.Journal

/-! ### Arguments -/

/-- The arguments of a template. -/
inductive Args where
  /-- One for each place, in order. -/
  | listed (values : List Value)
  /-- By name. Until a place asks for a name, the next place takes all of them at once. -/
  | named (fields : Fields) (next : Option Value)

namespace Args

/-- A single argument that is an object with fields gives its fields by name. -/
def ofList : List Value → Args
  | [.object (field :: rest)] => .named (field :: rest) (some (.object (field :: rest)))
  | values => .listed values

/-- The next argument, and those behind it. -/
def next? : Args → Option (Value × Args)
  | .listed [] => none
  | .listed (value :: rest) => some (value, .listed rest)
  | .named _ none => none
  | .named fields (some value) => some (value, .named fields none)

/-- The arguments with that of a name next. -/
def select? (name : String) : Args → Option Args
  | .listed _ => none
  | .named fields _ => (fields.get? name).map (fun value => .named fields (some value))

/-- Whether a template may end here. -/
def mayEnd : Args → Bool
  | .listed values => values.isEmpty
  | .named .. => true

end Args

/-! ### Numbers -/

/-- How an argument is laid out in its place. -/
structure Slot where
  /-- Whether it stands at the left. -/
  left : Bool := false
  /-- Whether a number that is not negative has a plus sign. -/
  plus : Bool := false
  /-- Whether a number that is not negative has a blank for a sign. -/
  blank : Bool := false
  /-- Whether the other form of a number is used. -/
  other : Bool := false
  /-- Whether a number is filled up with zeros. -/
  zero : Bool := false
  /-- The least width. -/
  width : Nat := 0
  /-- The precision. -/
  precision : Option Nat := none

namespace Slot

/-- A text in its place. -/
def text (slot : Slot) (cs : List Char) : List Char :=
  let kept := (slot.precision.map cs.take).getD cs
  let gap := List.replicate (slot.width - kept.length) ' '
  if slot.left then kept ++ gap else gap ++ kept

/-- A number in its place: its sign, what marks its base, and its digits. -/
def number (slot : Slot) (negative : Bool) (mark digits : List Char) : List Char :=
  let sign :=
    if negative then ['-'] else if slot.plus then ['+'] else if slot.blank then [' '] else []
  let size := sign.length + mark.length + digits.length
  if slot.left then sign ++ mark ++ digits ++ List.replicate (slot.width - size) ' '
  else if slot.zero then sign ++ mark ++ List.replicate (slot.width - size) '0' ++ digits
  else List.replicate (slot.width - size) ' ' ++ sign ++ mark ++ digits

/-- An integer in its place, in that base. -/
def integer (slot : Slot) (base : Nat) (mark : List Char) (n : Int) : List Char :=
  slot.number (n < 0) (if slot.other then mark else [])
    (Binary64.zeroPadded (slot.precision.getD 0) (Nat.toDigits base n.natAbs))

/-- Digits with a point so many digits before their end. -/
def pointed (slot : Slot) (places : Nat) (digits : List Char) : List Char :=
  let whole := digits.take (digits.length - places)
  if places = 0 && !slot.other then whole
  else whole ++ '.' :: digits.drop (digits.length - places)

/-- A quotient with so many places behind the point. -/
def fixed (slot : Slot) (places num den : Nat) : List Char :=
  let rounded := Binary64.roundHalfEven (num * Nat.pow 10 places) den
  slot.pointed places (Binary64.zeroPadded (places + 1) (Nat.toDigits 10 rounded))

/-- The digits of a quotient, one before the point and so many behind it, and the power of ten that
goes with them. -/
def scientific (places num den : Nat) : List Char × Int :=
  if num = 0 then (List.replicate (places + 1) '0', 0)
  else
    let power := Binary64.leadingPower num den
    let parts := Binary64.overPower num den (power - places)
    let digits := Nat.toDigits 10 (Binary64.roundHalfEven parts.1 parts.2)
    -- Rounding up may have given one digit more.
    if places + 1 < digits.length then (digits.take (places + 1), power + 1) else (digits, power)

/-- A power of ten. -/
def power (letter : Char) (n : Int) : List Char :=
  [letter, if n < 0 then '-' else '+'] ++ Binary64.zeroPadded 2 (Nat.toDigits 10 n.natAbs)

/-- Digits with a point, without the zeros at their end. -/
def shortened (slot : Slot) (cs : List Char) : List Char :=
  if slot.other || !cs.contains '.' then cs
  else (cs.reverse.dropWhile (· == '0')).dropWhile (· == '.') |>.reverse

/-- A quotient, written with a power of ten if it is far from one. -/
def general (slot : Slot) (letter : Char) (digits num den : Nat) : List Char :=
  let found := scientific (digits - 1) num den
  if found.2 < -4 ∨ (digits : Int) ≤ found.2 then
    slot.shortened (slot.pointed (digits - 1) found.1) ++ power letter found.2
  else slot.shortened (slot.fixed ((digits : Int) - 1 - found.2).toNat num den)

/-- The digits of a quotient by the letter of its place. -/
def quotient (slot : Slot) (letter : Char) (num den : Nat) : List Char :=
  let places := slot.precision.getD 6
  if letter = 'f' then slot.fixed places num den
  else if letter = 'e' then
    let found := scientific places num den
    slot.pointed places found.1 ++ power letter found.2
  else slot.general 'e' (max places 1) num den

/-- A floating-point number in its place. -/
def float (slot : Slot) (letter : Char) (x : Binary64) : List Char :=
  let small := letter.toLower
  let written (digits : List Char) : List Char :=
    if letter = small then digits else digits.map Char.toUpper
  match x with
  | .finite negative mantissa exponent =>
    let value := Binary64.quotient mantissa exponent
    slot.number negative [] (written (slot.quotient small value.1 value.2))
  | .infinite negative => slot.number negative [] (written "inf".toList)
  | .nan => slot.number false [] (written "nan".toList)

end Slot

/-! ### Arguments in their places -/

/-- The integer that an argument is. -/
def integer? : Value → Option Int
  | .int n => some n
  | .bool b => some (if b then 1 else 0)
  | _ => none

/-- The integer that an argument is, a fraction cut off. -/
def truncated? : Value → Option Int
  | .float (.finite negative mantissa exponent) =>
    let value := Binary64.quotient mantissa exponent
    let n : Int := (value.1 / value.2 : Nat)
    some (if negative then -n else n)
  | value => integer? value

/-- The floating-point number that an argument is nearest to, if it is a number in their range. -/
def float? : Value → Option Binary64
  | .float x => some x
  | value =>
    (integer? value).bind (fun n =>
      match Binary64.ofDecimal (n < 0) n.natAbs 0 with
      | .infinite _ => none
      | x => some x)

/-- A text with escapes for what is not ASCII. -/
def asciiOnly (cs : List Char) : List Char :=
  cs.flatMap (fun c =>
    if c.toNat < 0x80 then [c]
    else if c.toNat < 0x100 then '\\' :: 'x' :: Text.hexDigits 2 c.toNat
    else if c.toNat < 0x10000 then '\\' :: 'u' :: Text.hexDigits 4 c.toNat
    else '\\' :: 'U' :: Text.hexDigits 8 c.toNat)

/-- The character that an argument is. -/
def character? : Value → Option Char
  | .text s =>
    match s.toList with
    | [c] => some c
    | _ => none
  | value =>
    (integer? value).bind (fun n =>
      if 0 ≤ n ∧ n.toNat.isValidChar then some (Char.ofNat n.toNat) else none)

/-- An argument in its place, by the letter of the place. -/
def convert? (slot : Slot) (letter : Char) (value : Value) : Option (List Char) :=
  match letter with
  | 's' => some (slot.text value.display.toList)
  | 'r' => some (slot.text value.inspect)
  | 'a' => some (slot.text (asciiOnly value.inspect))
  | 'c' => (character? value).map (fun c => { slot with precision := none }.text [c])
  | 'd' | 'i' | 'u' => (truncated? value).map (slot.integer 10 [])
  | 'o' => (integer? value).map (slot.integer 8 ['0', 'o'])
  | 'x' => (integer? value).map (slot.integer 16 ['0', 'x'])
  | 'X' =>
    (integer? value).map (fun n => (slot.integer 16 ['0', 'x'] n).map Char.toUpper)
  | 'e' | 'E' | 'f' | 'F' | 'g' | 'G' => (float? value).map (slot.float letter)
  | _ => none

/-! ### Templates -/

/-- Which part of a template is being read. -/
inductive Stage where
  /-- Text between places. -/
  | text
  /-- What comes right behind a percent sign. -/
  | start
  /-- A name in parentheses, reversed, that many of which are open inside of it. -/
  | name (depth : Nat) (read : List Char)
  /-- The flags of a place. -/
  | flags (slot : Slot)
  /-- The digits of a width. -/
  | width (slot : Slot)
  /-- What comes behind a width. -/
  | sized (slot : Slot)
  /-- What comes right behind a point. -/
  | point (slot : Slot)
  /-- The digits of a precision. -/
  | precision (slot : Slot)
  /-- What comes behind a precision. -/
  | precise (slot : Slot)
  /-- The letter of a place. -/
  | letter (slot : Slot)

/-- What a character of a template leads to: the next stage, the arguments left, and what is
written. -/
abbrev Reading := Option (Stage × Args × List Char)

/-- The letter of a place. -/
def readLetter (slot : Slot) (args : Args) (c : Char) : Reading :=
  args.next?.bind (fun next =>
    (convert? slot c next.1).map (fun written => (.text, next.2, written)))

/-- The letter of a place, or a size in front of it, which has no effect. -/
def readSize (slot : Slot) (args : Args) (c : Char) : Reading :=
  if c = 'h' ∨ c = 'l' ∨ c = 'L' then some (.letter slot, args, []) else readLetter slot args c

/-- A further digit of a precision, or what follows it. -/
def readPrecision (slot : Slot) (args : Args) (c : Char) : Reading :=
  match Text.Numeral.asciiDigit? c with
  | some digit =>
    some (.precision { slot with precision := some (10 * slot.precision.getD 0 + digit) }, args, [])
  | none => readSize slot args c

/-- The first character behind a point. An asterisk asks for the next argument. -/
def readPoint (slot : Slot) (args : Args) (c : Char) : Reading :=
  if c = '*' then
    args.next?.bind (fun next =>
      (integer? next.1).map (fun (n : Int) =>
        (.precise { slot with precision := some n.toNat }, next.2, [])))
  else readPrecision { slot with precision := some 0 } args c

/-- What follows a width. -/
def readSized (slot : Slot) (args : Args) (c : Char) : Reading :=
  if c = '.' then some (.point slot, args, []) else readSize slot args c

/-- A further digit of a width, or what follows it. -/
def readWidth (slot : Slot) (args : Args) (c : Char) : Reading :=
  match Text.Numeral.asciiDigit? c with
  | some digit => some (.width { slot with width := 10 * slot.width + digit }, args, [])
  | none => readSized slot args c

/-- A flag, or the first character behind the flags. An asterisk asks for the next argument, and a
negative one puts what is written at the left. -/
def readFlag (slot : Slot) (args : Args) (c : Char) : Reading :=
  match c with
  | '-' => some (.flags { slot with left := true }, args, [])
  | '+' => some (.flags { slot with plus := true }, args, [])
  | ' ' => some (.flags { slot with blank := true }, args, [])
  | '#' => some (.flags { slot with other := true }, args, [])
  | '0' => some (.flags { slot with zero := true }, args, [])
  | '*' =>
    args.next?.bind (fun next =>
      (integer? next.1).map (fun (n : Int) =>
        (.sized { slot with left := slot.left || decide (n < 0), width := n.natAbs }, next.2, [])))
  | _ => readWidth slot args c

/-- A further character of a name in parentheses. -/
def readName (depth : Nat) (read : List Char) (args : Args) (c : Char) : Reading :=
  if c = ')' then
    match depth with
    | 0 => (args.select? (String.ofList read.reverse)).map (fun chosen => (.flags {}, chosen, []))
    | depth + 1 => some (.name depth (c :: read), args, [])
  else some (.name (if c = '(' then depth + 1 else depth) (c :: read), args, [])

/-- What a character leads to at a stage. -/
def Stage.next (stage : Stage) (args : Args) (c : Char) : Reading :=
  match stage with
  | .text => if c = '%' then some (.start, args, []) else some (.text, args, [c])
  | .start =>
    if c = '%' then some (.text, args, ['%'])
    else if c = '(' then some (.name 0 [], args, [])
    else readFlag {} args c
  | .name depth read => readName depth read args c
  | .flags slot => readFlag slot args c
  | .width slot => readWidth slot args c
  | .sized slot => readSized slot args c
  | .point slot => readPoint slot args c
  | .precision slot => readPrecision slot args c
  | .precise slot => readSize slot args c
  | .letter slot => readLetter slot args c

/-- The rest of a template with the arguments in its places. -/
def fill (stage : Stage) (args : Args) : List Char → Option (List Char)
  | [] =>
    match stage with
    | .text => if args.mayEnd then some [] else none
    | _ => none
  | c :: rest =>
    match stage.next args c with
    | some (later, left, written) => (fill later left rest).map (written ++ ·)
    | none => none

/-- The message of a template, if the arguments fit; without arguments it is the template itself. -/
def message (template : String) (args : List Value) : Option String :=
  if args.isEmpty then some template
  else (fill .text (.ofList args) template.toList).map String.ofList

end ShellSurvey.Journal
