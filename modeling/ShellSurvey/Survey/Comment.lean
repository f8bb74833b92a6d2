import ShellSurvey.Facts
import ShellSurvey.Text.Blank

/-!
# Comments of a script

Every comment is told, but for an interpreter line at the top. A comment that stands alone on its
line may belong to the documentation of a function: the block above a line is the run of such
comments on the lines right before it.
-/

namespace ShellSurvey.Survey

/-- A comment of a script, with the line it stands alone on, if it does. -/
structure Remark where
  /-- The comment. -/
  comment : DocComment
  /-- Whether nothing but blanks precedes it on its line. -/
  standalone : Bool
  deriving DecidableEq, Repr

/-- The bytes from the start of a row on, if there is such a row. -/
def rowFrom? : Nat → List UInt8 → Option (List UInt8)
  | 0, bytes => some bytes
  | _ + 1, [] => none
  | row + 1, b :: rest => if b = 10 then rowFrom? row rest else rowFrom? (row + 1) rest

/-- Whether a row holds nothing but blanks before a column, given the bytes from its start on. -/
def isBlankBefore (row : List UInt8) (column : Nat) : Bool :=
  ((row.take column).takeWhile (· != 10)).all Text.isBlankByte

/-- Whether nothing but blanks precedes a point on its row. -/
def standsAlone (bytes : List UInt8) (point : Point) : Bool :=
  match rowFrom? point.row bytes with
  | some rest => isBlankBefore rest point.column
  | none => false

/-- Whether a comment is the interpreter line of a script. -/
def isInterpreterLine (point : Point) (text : List Char) : Bool :=
  point.row == 0 && text.take 2 == ['#', '!']

/-- The comment of a captured part. -/
def remarkOf (file : String) (read : List Char → List Char) (capture : Capture)
    (standalone : Bool) : Remark where
  comment :=
    { text := String.ofList (read capture.text.toList),
      location := Location.ofSpan file capture.site.span }
  standalone := standalone

/-- The comment of a match. -/
def remark? (bytes : List UInt8) (file : String) (read : List Char → List Char)
    (captures : Captures) : Option Remark :=
  match captures.get? "doc.content" with
  | none => none
  | some capture =>
    if isInterpreterLine capture.site.span.start capture.text.toList then none
    else some (remarkOf file read capture (standsAlone bytes capture.site.span.start))

/-- The comments of the matches. -/
def remarks (bytes : List UInt8) (file : String) (read : List Char → List Char)
    (found : List Captures) : List Remark :=
  found.filterMap (remark? bytes file read)

/-- The text that stands alone on a line; of several the last. -/
def lineText? (remarks : List Remark) (line : Nat) : Option String :=
  (remarks.reverse.find? (fun r => r.standalone && r.comment.location.line == line)).map
    (·.comment.text)

/-- The run of comment lines that ends at a line, the last one first. -/
def runUpTo (remarks : List Remark) : Nat → List String
  | 0 => []
  | line + 1 =>
    match lineText? remarks (line + 1) with
    | some text => text :: runUpTo remarks line
    | none => []

/-- The comment block right above a line. -/
def docAbove (remarks : List Remark) (line : Nat) : Option String :=
  match runUpTo remarks (line - 1) with
  | [] => none
  | texts => some ("\n".intercalate texts.reverse)

end ShellSurvey.Survey
