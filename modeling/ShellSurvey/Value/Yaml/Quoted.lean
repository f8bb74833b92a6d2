import ShellSurvey.Value.Yaml.Scalar

/-!
# YAML scalars in quotes

A scalar in quotes may go over several lines: a line ending with the blanks around it is read as
one space, and each empty line as a line feed. Between single quotes a quote is written twice;
between double quotes a backslash starts an escape.
-/

namespace ShellSurvey.Yaml

/-- Whether a character is a space or a tab. -/
def isGap (c : Char) : Bool :=
  c == ' ' || c == '\t'

/-- The characters that a run of line endings stands for, given how many there are. -/
def folded (breaks : Nat) : List Char :=
  if breaks ≤ 1 then [' '] else List.replicate (breaks - 1) '\n'

/-- What a run of blanks and line endings leaves: how many line endings it has, and the text
behind it. -/
def skipBreaks : Nat → List Char → Nat × List Char
  | breaks, [] => (breaks, [])
  | breaks, c :: rest =>
    if c = '\n' then skipBreaks (breaks + 1) rest
    else if isGap c then skipBreaks breaks rest
    else (breaks, c :: rest)

/-- Blanks at the front of a text, folded if a line ends among them, and what follows. -/
def foldGap (cs : List Char) : List Char × List Char :=
  let run := skipBreaks 0 cs
  if run.1 = 0 then (cs.takeWhile isGap, run.2) else (folded run.1, run.2)

/-- Whether a character is a blank or a line ending. -/
def isBreakable (c : Char) : Bool :=
  isGap c || c == '\n'

/-- The rest of a scalar in single quotes, and what follows it. The bound is on the number of
pieces, each of which takes at least one character. -/
def readSingle : Nat → List Char → Option (List Char × List Char)
  | 0, _ => none
  | _ + 1, [] => none
  | bound + 1, '\'' :: '\'' :: rest =>
    (readSingle bound rest).map (fun r => ('\'' :: r.1, r.2))
  | bound + 1, c :: rest =>
    if c = '\'' then some ([], rest)
    else if isBreakable c then
      let gap := foldGap (c :: rest)
      (readSingle bound gap.2).map (fun r => (gap.1 ++ r.1, r.2))
    else (readSingle bound rest).map (fun r => (c :: r.1, r.2))

/-- The characters that single letters stand for behind a backslash. -/
def escapes : List (Char × Char) :=
  [('0', '\x00'), ('a', '\x07'), ('b', '\x08'), ('t', '\t'), ('\t', '\t'), ('n', '\n'),
    ('v', '\x0b'), ('f', '\x0c'), ('r', '\r'), ('e', '\x1b'), (' ', ' '), ('"', '"'),
    ('\\', '\\'), ('/', '/'), ('N', '\u0085'), ('_', '\u00a0'), ('L', '\u2028'),
    ('P', '\u2029')]

/-- How many hexadecimal digits follow a letter behind a backslash. -/
def codeLength? (c : Char) : Option Nat :=
  if c = 'x' then some 2 else if c = 'u' then some 4 else if c = 'U' then some 8 else none

/-- The number that hexadecimal digits denote. -/
def code? (digits : List Char) : Option Nat :=
  if digits.contains '_' then none else natural? 16 digits

/-- Whether a code unit is the first half of a surrogate pair. -/
def isFirstHalf (n : Nat) : Bool :=
  0xD800 ≤ n && n < 0xDC00

/-- The character of a code at the front of a text, the two halves of a pair taken together,
and what follows. -/
def readCode? (length : Nat) (cs : List Char) : Option (Char × List Char) :=
  let digits := cs.take length
  if digits.length < length then none
  else
    match code? digits with
    | none => none
    | some n =>
      match isFirstHalf n, cs.drop length with
      | true, '\\' :: 'u' :: rest =>
        if (rest.take 4).length < 4 then none
        else
          (code? (rest.take 4)).map (fun m =>
            (Char.ofNat (0x10000 + (n - 0xD800) * 0x400 + (m - 0xDC00)), rest.drop 4))
      | _, rest => if n ≤ 0x10FFFF then some (Char.ofNat n, rest) else none

/-- The rest of a scalar in double quotes, and what follows it. The bound is on the number of
pieces, each of which takes at least one character. -/
def readDouble : Nat → List Char → Option (List Char × List Char)
  | 0, _ => none
  | _ + 1, [] => none
  | bound + 1, '\\' :: '\n' :: rest => readDouble bound (rest.dropWhile isGap)
  | bound + 1, '\\' :: c :: rest =>
    match codeLength? c with
    | some length =>
      match readCode? length rest with
      | some code => (readDouble bound code.2).map (fun r => (code.1 :: r.1, r.2))
      | none => none
    | none =>
      match escapes.find? (fun entry => entry.1 = c) with
      | some entry => (readDouble bound rest).map (fun r => (entry.2 :: r.1, r.2))
      | none => none
  | bound + 1, c :: rest =>
    if c = '"' then some ([], rest)
    else if isBreakable c then
      let gap := foldGap (c :: rest)
      (readDouble bound gap.2).map (fun r => (gap.1 ++ r.1, r.2))
    else if c = '\\' then none
    else (readDouble bound rest).map (fun r => (c :: r.1, r.2))

/-- A scalar in quotes at the front of a text, and what follows it. -/
def readQuoted (cs : List Char) : Option (List Char × List Char) :=
  match cs with
  | '\'' :: rest => readSingle (rest.length + 1) rest
  | '"' :: rest => readDouble (rest.length + 1) rest
  | _ => none

/-- Whether a text starts with a quote. -/
def startsQuoted : List Char → Bool
  | c :: _ => c == '\'' || c == '"'
  | [] => false

end ShellSurvey.Yaml
