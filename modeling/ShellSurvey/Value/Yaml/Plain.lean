import ShellSurvey.Value.Yaml.Quoted

/-!
# YAML scalars without quotes

A scalar without quotes ends at a line ending, before a comment, and before a colon that a blank
follows; within brackets also before a comma or a bracket. It goes on on the next lines as long
as they are indented deeper than what it belongs to.
-/

namespace ShellSurvey.Yaml

/-- Whether a text is at its end or starts with a blank or a line ending. -/
def atBlank : List Char → Bool
  | [] => true
  | c :: _ => isBreakable c

/-- The characters that divide the parts of a bracket. -/
def isDivider (c : Char) : Bool :=
  c == ',' || c == '[' || c == ']' || c == '\x7b' || c == '\x7d'

/-- Whether a colon at the front of a text, given what follows it, ends a key. -/
def colonEnds (inner : Bool) (rest : List Char) : Bool :=
  atBlank rest || (inner && (rest.head?.map isDivider).getD false)

/-- Whether a scalar without quotes cannot go on at a text that does not start with a space. -/
def endsPlain (inner : Bool) : List Char → Bool
  | [] => true
  | c :: rest =>
    c == '\n' || c == '\t' || (c == ':' && colonEnds inner rest) ||
      (inner && (isDivider c || c == '?'))

/-- Whether a scalar without quotes ends before a text. -/
def stopsPlain (inner : Bool) : List Char → Bool
  | ' ' :: rest =>
    match rest.dropWhile (· == ' ') with
    | '#' :: _ => true
    | other => endsPlain inner other
  | other => endsPlain inner other

/-- The part of a scalar without quotes on one line, and what follows. -/
def plainLine (inner : Bool) : List Char → List Char × List Char
  | [] => ([], [])
  | c :: rest =>
    if stopsPlain inner (c :: rest) then ([], c :: rest)
    else
      let more := plainLine inner rest
      (c :: more.1, more.2)

/-- The characters that a scalar without quotes does not start with. -/
def indicators : List Char :=
  ['-', '?', ':', ',', '[', ']', '\x7b', '\x7d', '#', '&', '*', '!', '|', '>', '\'', '"', '%',
    '@', '\x60', ' ', '\t', '\n']

/-- Whether a scalar without quotes may start with a text. -/
def startsPlain (inner : Bool) : List Char → Bool
  | [] => false
  | c :: rest =>
    !indicators.contains c ||
      (!atBlank rest && (c == '-' || (!inner && (c == '?' || c == ':'))))

/-- The first content behind line endings: how many line endings there are, the column of the
content, and the text from it on. -/
def nextContent : Nat → Nat → List Char → Nat × Nat × List Char
  | breaks, column, [] => (breaks, column, [])
  | breaks, column, c :: rest =>
    if c = '\n' then nextContent (breaks + 1) 0 rest
    else if c = ' ' then nextContent breaks (column + 1) rest
    else (breaks, column, c :: rest)

/-- Whether a text at the start of a line is a document marker. -/
def isMarker (cs : List Char) : Bool :=
  (cs.take 3 == ['-', '-', '-'] || cs.take 3 == ['.', '.', '.']) && atBlank (cs.drop 3)

/-- A scalar without quotes at the front of a text, and what follows it. Further lines belong to
it from column `indent` on. The bound is on the number of lines. -/
def readPlain (inner : Bool) (indent : Nat) : Nat → List Char → List Char × List Char
  | 0, cs => ([], cs)
  | bound + 1, cs =>
    let line := plainLine inner cs
    match line.2.dropWhile (· == ' ') with
    | '\n' :: rest =>
      let next := nextContent 1 0 rest
      let content := next.2.2
      if (!inner && next.2.1 < indent) || content.head? == some '#' ||
          (next.2.1 == 0 && isMarker content) || (plainLine inner content).1.isEmpty then line
      else
        let more := readPlain inner indent bound content
        (line.1 ++ folded next.1 ++ more.1, more.2)
    | _ => line

end ShellSurvey.Yaml
