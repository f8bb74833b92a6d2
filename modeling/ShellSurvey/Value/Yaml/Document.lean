import ShellSurvey.Text.LineEnding
import ShellSurvey.Value.Yaml.Block

/-!
# YAML documents

`Yaml.parse?` reads a text that holds one document. A document may be announced by a marker, and
by directives before the marker; it ends with the text or with a marker, and no second one may
follow. Anchors, tags and scalars over several lines by sign are not read.
-/

namespace ShellSurvey.Yaml

/-- Whether a character may stand in a document. -/
def isAllowed (c : Char) : Bool :=
  let n := c.toNat
  n == 0x09 || n == 0x0A || n == 0x0D || (0x20 ≤ n && n ≤ 0x7E) || n == 0x85 ||
    (0xA0 ≤ n && n ≤ 0xD7FF) || (0xE000 ≤ n && n ≤ 0xFFFD && n != 0xFEFF) || 0x10000 ≤ n

/-- Whether a character may stand in the name of a directive. -/
def isNameChar (c : Char) : Bool :=
  c.isAlphanum || c == '-' || c == '_'

/-- Whether a line is a directive that is understood or may be passed over. -/
def isDirective (line : List Char) : Bool :=
  match line with
  | '%' :: rest =>
    let name := rest.takeWhile isNameChar
    let more := rest.dropWhile isNameChar
    if name.isEmpty || !atBlank more then false
    else if name == ['Y', 'A', 'M', 'L'] then
      match more.dropWhile (· == ' ') with
      | '1' :: '.' :: minor =>
        !(minor.takeWhile Char.isDigit).isEmpty && endsLine (minor.dropWhile Char.isDigit)
      | _ => false
    else true
  | _ => false

/-- The document behind its directives; the flag tells whether there was one. The bound is on
the number of lines. -/
def dropDirectives : Nat → Bool → List Char → Option (Bool × List Char)
  | 0, _, _ => none
  | bound + 1, seen, cs =>
    let start := seek false 0 cs
    match start.column, start.rest with
    | 0, '%' :: rest =>
      let line := ('%' :: rest).takeWhile (· != '\n')
      if isDirective line then dropDirectives bound true (('%' :: rest).drop line.length)
      else none
    | _, _ => some (seen, cs)

/-- Whether nothing but end markers follows a document. The bound is on the number of lines. -/
def isOver : Nat → Place → Bool
  | 0, _ => false
  | bound + 1, place =>
    match place.rest with
    | [] => true
    | '.' :: '.' :: '.' :: rest =>
      place.column == 0 &&
        match nextLine? rest with
        | some next => isOver bound next
        | none => false
    | _ => false

/-- The content of a document at a place. -/
def readContent (size : Nat) (start : Place) : Option (Value × Place) :=
  if start.atEnd then some (.null, start) else readBlock (3 * size + 3) 0 start

/-- The content of a document behind its marker. -/
def readMarked (size : Nat) (cs : List Char) : Option (Value × Place) :=
  if endsLine cs then readContent size (seek false 0 cs)
  else
    match readInline 0 (cs.dropWhile (· == ' ')) with
    | none => none
    | some (value, rest) => (nextLine? rest).map (fun next => (value, next))

/-- The value of a text that holds one document. -/
def parse? (text : List Char) : Option Value :=
  let cs :=
    match text with
    | '\ufeff' :: rest => Text.unify rest
    | other => Text.unify other
  if !cs.all isAllowed then none
  else
    match dropDirectives (cs.length + 1) false cs with
    | none => none
    | some (directed, body) =>
      let start := seek false 0 body
      let content :=
        if start.column == 0 && start.rest.take 3 == ['-', '-', '-'] && atBlank (start.rest.drop 3)
        then readMarked cs.length (start.rest.drop 3)
        else if directed then none
        else readContent cs.length start
      match content with
      | none => none
      | some (value, next) => if isOver (cs.length + 1) next then some value else none

end ShellSurvey.Yaml
