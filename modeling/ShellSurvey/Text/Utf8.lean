import ShellSurvey.Text.Numeral
import ShellSurvey.Text.Quoted

/-!
# UTF-8

`encode` writes characters as bytes. `decode` reads any byte string: where the bytes are not
well formed, each maximal ill-formed part gives one replacement character. A part is as long
as it could still have become a character; a byte that can neither start nor continue one
stands alone.

The decoder is a machine that reads byte after byte. Its state `Pending` says how many bytes
the character begun still needs and in which range the next one must lie, so that overlong
forms, surrogates and values above the last code point are refused at the earliest byte.

Where nothing may be replaced, `decodeStrictly` tells the first ill-formed part.
-/

namespace ShellSurvey.Text.Utf8

/-- What stands for ill-formed bytes. -/
def replacement : Char := '�'

/-! ### Writing -/

/-- The bytes of one character. -/
def encodeChar (c : Char) : List UInt8 :=
  let n := c.toNat
  if n < 0x80 then [n.toUInt8]
  else if n < 0x800 then [(0xC0 + n / 0x40).toUInt8, (0x80 + n % 0x40).toUInt8]
  else if n < 0x10000 then
    [(0xE0 + n / 0x1000).toUInt8, (0x80 + n / 0x40 % 0x40).toUInt8, (0x80 + n % 0x40).toUInt8]
  else
    [(0xF0 + n / 0x40000).toUInt8, (0x80 + n / 0x1000 % 0x40).toUInt8,
      (0x80 + n / 0x40 % 0x40).toUInt8, (0x80 + n % 0x40).toUInt8]

/-- The bytes of a text. -/
def encode (cs : List Char) : List UInt8 :=
  cs.flatMap encodeChar

/-! ### Reading -/

/-- A character begun: how many further bytes it needs, the range of the next of them, and
the bits read so far. -/
structure Pending where
  /-- The bytes still to come. -/
  need : Nat
  /-- The least admissible next byte. -/
  low : Nat
  /-- The greatest admissible next byte. -/
  high : Nat
  /-- The value of the bits read so far. -/
  bits : Nat
  deriving DecidableEq, Repr

/-- The effect of a byte: the characters it completes, and the character it leaves begun. -/
abbrev Reading := List Char × Option Pending

/-- The effect of a byte when no character is begun. -/
def lead (b : UInt8) : Reading :=
  let n := b.toNat
  if n < 0x80 then ([Char.ofNat n], none)
  else if n < 0xC2 then ([replacement], none)
  else if n < 0xE0 then ([], some ⟨1, 0x80, 0xBF, n - 0xC0⟩)
  else if n = 0xE0 then ([], some ⟨2, 0xA0, 0xBF, 0⟩)
  else if n = 0xED then ([], some ⟨2, 0x80, 0x9F, n - 0xE0⟩)
  else if n < 0xF0 then ([], some ⟨2, 0x80, 0xBF, n - 0xE0⟩)
  else if n = 0xF0 then ([], some ⟨3, 0x90, 0xBF, 0⟩)
  else if n < 0xF4 then ([], some ⟨3, 0x80, 0xBF, n - 0xF0⟩)
  else if n = 0xF4 then ([], some ⟨3, 0x80, 0x8F, n - 0xF0⟩)
  else ([replacement], none)

/-- The effect of a byte. A byte out of range ends the character begun as ill formed, and is
then read anew. -/
def step (state : Option Pending) (b : UInt8) : Reading :=
  match state with
  | none => lead b
  | some p =>
    let n := b.toNat
    if p.low ≤ n ∧ n ≤ p.high then
      let bits := p.bits * 0x40 + (n - 0x80)
      if p.need ≤ 1 then ([Char.ofNat bits], none)
      else ([], some ⟨p.need - 1, 0x80, 0xBF, bits⟩)
    else
      (replacement :: (lead b).1, (lead b).2)

/-- What the end of the bytes completes. -/
def finish : Option Pending → List Char
  | none => []
  | some _ => [replacement]

/-- One step of the machine with the characters completed so far, last first. -/
def advance (run : Option Pending × List Char) (b : UInt8) : Option Pending × List Char :=
  let reading := step run.1 b
  (reading.2, reading.1.reverse ++ run.2)

/-- The characters of the bytes, read from the given state. -/
def decodeFrom (state : Option Pending) (bytes : List UInt8) : List Char :=
  let run := bytes.foldl advance (state, [])
  (finish run.1 ++ run.2).reverse

/-- The characters of a byte string, ill-formed parts replaced. -/
def decode (bytes : List UInt8) : List Char :=
  decodeFrom none bytes

/-! ### Reading without replacement -/

/-- The first ill-formed part of a byte string. -/
structure Flaw where
  /-- Where it starts. -/
  start : Nat
  /-- The byte at its start. -/
  byte : UInt8
  /-- How many bytes it has. -/
  length : Nat
  /-- What is wrong with it. -/
  reason : String
  deriving DecidableEq, Repr

/-- The message of an ill-formed part. -/
def Flaw.message (flaw : Flaw) : String :=
  let place :=
    if flaw.length = 1 then
      "byte 0x" ++ String.ofList (hexDigits 2 flaw.byte.toNat) ++ " in position " ++
        Numeral.natText flaw.start
    else
      "bytes in position " ++ Numeral.natText flaw.start ++ "-" ++
        Numeral.natText (flaw.start + flaw.length - 1)
  "'utf-8' codec can't decode " ++ place ++ ": " ++ flaw.reason

/-- The first ill-formed part, read from a position on. A character begun is given with the position
and the byte at which it starts. A part that the end cuts off is counted from its own start, as what
is left of the bytes is read by itself. -/
def flawFrom? (begun : Option (Pending × Nat × UInt8)) (position : Nat) :
    List UInt8 → Option Flaw
  | [] => begun.map (fun part => ⟨0, part.2.2, position - part.2.1, "unexpected end of data"⟩)
  | b :: rest =>
    match begun with
    | none =>
      match lead b with
      | (_, some p) => flawFrom? (some (p, position, b)) (position + 1) rest
      | (_, none) =>
        if b.toNat < 0x80 then flawFrom? none (position + 1) rest
        else some ⟨position, b, 1, "invalid start byte"⟩
    | some (p, start, first) =>
      if p.low ≤ b.toNat ∧ b.toNat ≤ p.high then
        let left : Option (Pending × Nat × UInt8) :=
          if p.need ≤ 1 then none else some (⟨p.need - 1, 0x80, 0xBF, 0⟩, start, first)
        flawFrom? left (position + 1) rest
      else some ⟨start, first, position - start, "invalid continuation byte"⟩

/-- The characters of a byte string, or its first ill-formed part. -/
def decodeStrictly (bytes : List UInt8) : Except Flaw (List Char) :=
  match flawFrom? none 0 bytes with
  | some flaw => .error flaw
  | none => .ok (decode bytes)

/-- The bytes from `start` up to `stop`; none where the bounds leave nothing. -/
def slice (bytes : List UInt8) (start stop : Nat) : List UInt8 :=
  (bytes.drop start).take (stop - start)

end ShellSurvey.Text.Utf8
