import ShellSurvey.Text.Blank
import ShellSurvey.Text.CellWidth
import ShellSurvey.Text.Split

/-!
# Layout

How texts are laid out for a reader, by the cells that their characters take.

* `shown` is a text as a line shows it.
* `expandTabs` puts spaces in the place of tabs.
* `layOut` breaks a text into lines of one width, each filled up with spaces.

A line is broken in front of a word that has no room left on it. A word that is wider than a whole
line is folded or cut.
-/

namespace ShellSurvey.Command

/-! ### Characters -/

/-- Whether a character moves the cursor and has no place in a line. -/
def isDropped (c : Char) : Bool :=
  c.toNat == 0x07 || c.toNat == 0x08 || c.toNat == 0x0B || c.toNat == 0x0C || c.toNat == 0x0D

/-- Whether a character may start the name of a tag. -/
def startsTag (c : Char) : Bool :=
  ('a' ≤ c && c ≤ 'z') || c == '#' || c == '/' || c == '@'

/-- Whether a tag follows its opening bracket: a name up to a closing bracket, without an opening
one before it. -/
def isTagBody : List Char → Bool
  | [] => false
  | c :: rest => startsTag c && rest.find? (fun d => d == '[' || d == ']') == some ']'

/-- A text without the backslash that stands directly before a bracket, unless the bracket opens a
tag. -/
def openBrackets : List Char → List Char
  | [] => []
  | c :: rest =>
    match c, rest with
    | '\\', '[' :: body => if isTagBody body then c :: openBrackets rest else openBrackets rest
    | _, _ => c :: openBrackets rest

/-- A text with a lone backslash at its end written twice. -/
def closeBackslash (cs : List Char) : List Char :=
  match cs.reverse with
  | '\\' :: '\\' :: _ => cs
  | '\\' :: _ => cs ++ ['\\']
  | _ => cs

/-- A text as a line shows it. -/
def shown (text : String) : List Char :=
  (openBrackets (closeBackslash text.toList)).filter (fun c => !isDropped c)

/-! ### Spaces -/

/-- So many spaces. -/
def spaces (n : Nat) : List Char :=
  List.replicate n ' '

/-- The cells between the stops of tabs. -/
def tabWidth : Nat := 8

/-- A line with spaces in the place of tabs, given the cells before it. A tab takes at least one
cell and goes on to the next stop. -/
def expandTabs (position : Nat) : List Char → List Char
  | [] => []
  | c :: rest =>
    if c = '\t' then
      let size := tabWidth - position % tabWidth
      spaces size ++ expandTabs (position + size) rest
    else c :: expandTabs (position + Text.charCells c) rest

/-- The lines of a text without tabs. -/
def plainLines (text : List Char) : List (List Char) :=
  (Text.splitWhere (· == '\n') text).map (expandTabs 0)

/-- Which side of a column its lines keep to. -/
inductive Side where
  /-- The left. -/
  | left
  /-- The right. -/
  | right
  /-- Neither. -/
  | middle
  deriving DecidableEq, Repr

/-- A line filled up to a width; in the middle, an odd space is at the back. -/
def padTo (side : Side) (width : Nat) (line : List Char) : List Char :=
  let gap := width - Text.cells line
  match side with
  | .left => line ++ spaces gap
  | .right => spaces gap ++ line
  | .middle => spaces (gap / 2) ++ line ++ spaces (gap - gap / 2)

/-! ### Breaking lines -/

/-- What becomes of a word that is wider than a line. -/
inductive Overflow where
  /-- It goes on in the next line. -/
  | fold
  /-- It is cut, and dots stand for the rest. -/
  | cut
  deriving DecidableEq, Repr

/-- The words of a line, each with the blanks behind it, and the first with those before it, given
the word begun, reversed, and whether a blank has ended it. -/
def brokenWords (word : List Char) (ended : Bool) : List Char → List (List Char)
  | [] => [word.reverse]
  | c :: rest =>
    if Text.isBlank c then brokenWords (c :: word) (ended || word.any (!Text.isBlank ·)) rest
    else if ended then word.reverse :: brokenWords [c] false rest
    else brokenWords (c :: word) false rest

/-- The pieces of a word that fit a width, given the piece begun, reversed, and its cells. -/
def foldWord (width : Nat) (piece : List Char) (used : Nat) : List Char → List (List Char)
  | [] => [piece.reverse]
  | c :: rest =>
    if width < used + Text.charCells c then
      piece.reverse :: foldWord width [c] (Text.charCells c) rest
    else foldWord width (c :: piece) (used + Text.charCells c) rest

/-- The pieces in which a word that is wider than a line is set. -/
def setWide (overflow : Overflow) (width : Nat) (word : List Char) : List (List Char) :=
  match overflow with
  | .fold => foldWord width [] 0 word
  | .cut => [word]

/-- Adds a word to lines, of which the last comes first. -/
def addWord (overflow : Overflow) (width : Nat) (lines : List (List Char)) (word : List Char) :
    List (List Char) :=
  let size := Text.cells (Text.trimBack word)
  match lines with
  | [] => if width < size then (setWide overflow width word).reverse else [word]
  | line :: above =>
    if Text.cells line + size ≤ width then (line ++ word) :: above
    else if width < size then (setWide overflow width word).reverse ++ lines
    else word :: lines

/-- The lines into which a line is broken. -/
def breakLine (overflow : Overflow) (width : Nat) (line : List Char) : List (List Char) :=
  ((brokenWords [] false line).foldl (addWord overflow width) []).reverse

/-- A line without those blanks at its back that are beyond a width. -/
def dropBeyond (width : Nat) (line : List Char) : List Char :=
  let blanks := (line.reverse.takeWhile Text.isBlank).length
  line.take (line.length - min blanks (line.length - width))

/-- The front of a line that fits a width; half a wide character is a space. -/
def cutTo (width : Nat) : List Char → List Char
  | [] => []
  | c :: rest =>
    if Text.charCells c ≤ width then c :: cutTo (width - Text.charCells c) rest
    else spaces width

/-- A line that is no wider than a width. -/
def within (overflow : Overflow) (width : Nat) (line : List Char) : List Char :=
  if Text.cells line ≤ width then line
  else
    match overflow with
    | .fold => cutTo width line
    | .cut => cutTo (width - 1) line ++ ['…']

/-- A text as lines of one width. -/
def layOut (overflow : Overflow) (side : Side) (width : Nat) (text : List Char) :
    List (List Char) :=
  (plainLines text).flatMap (fun line =>
    (breakLine overflow width line).map (fun piece =>
      padTo side width (within overflow width (dropBeyond width piece))))

/-- Whether a character ends a line for the measure of a text. -/
def endsLine (c : Char) : Bool :=
  (0x0A ≤ c.toNat && c.toNat ≤ 0x0D) || (0x1C ≤ c.toNat && c.toNat ≤ 0x1E) || c.toNat == 0x85 ||
    c.toNat == 0x2028 || c.toNat == 0x2029

/-- The cells of the widest line of a text. -/
def widest (text : List Char) : Nat :=
  (Text.splitWhere endsLine text).foldl (fun width line => max width (Text.cells line)) 0

end ShellSurvey.Command
