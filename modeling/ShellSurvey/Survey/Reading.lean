import ShellSurvey.Survey.Assemble
import ShellSurvey.Survey.Failure

/-!
# Reading matches

The facts of a script as `assemble` gives them, read with lookups that may find nothing. A function
stands where the whole match does, or else where its name does; the row of a comment is sought
among the rows of the source. A lookup that finds nothing ends the survey, so that whether facts
are told at all is a question about the matches.
-/

namespace ShellSurvey.Survey

/-! ### Lookups -/

/-- The capture of a label that has to be there. -/
def lookUp (captures : Captures) (label : String) : Except Absent Capture :=
  match captures.get? label with
  | some capture => .ok capture
  | none => .error (.label label)

/-- How many rows a source has. -/
def rowCount (bytes : List UInt8) : Nat :=
  bytes.count 10 + 1

/-- The bytes from the start of a row on that has to be there. -/
def lookUpRow (bytes : List UInt8) (row : Nat) : Except Absent (List UInt8) :=
  match rowFrom? row bytes with
  | some rest => .ok rest
  | none => .error (.row row)

/-- The records of matches, up to a lookup that finds nothing. -/
def readEach {α : Type} (read : Captures → Except Absent (Option α)) :
    List Captures → Except Absent (List α)
  | [] => .ok []
  | captures :: rest =>
    match read captures with
    | .error absent => .error absent
    | .ok record => (readEach read rest).map (record.toList ++ ·)

/-! ### Comments -/

/-- Whether nothing but blanks precedes a point on its row, which is looked up if the source has
so many rows. -/
def readAlone (bytes : List UInt8) (point : Point) : Except Absent Bool :=
  if point.row < rowCount bytes then
    (lookUpRow bytes point.row).map (fun row => isBlankBefore row point.column)
  else .ok false

/-- The comment of a match. -/
def readRemark (bytes : List UInt8) (file : String) (read : List Char → List Char)
    (captures : Captures) : Except Absent (Option Remark) :=
  match captures.get? "doc.content" with
  | none => .ok none
  | some capture =>
    let start := capture.site.span.start
    if isInterpreterLine start capture.text.toList then .ok none
    else (readAlone bytes start).map (fun alone => some (remarkOf file read capture alone))

/-- The comments of a script. -/
def readRemarks (transforms : Transforms) (script : Script) (found : Found) :
    Except Absent (List Remark) :=
  match transforms.comment with
  | some read => readEach (readRemark script.bytes script.file read) (found .docComments)
  | none => .ok []

/-! ### Functions -/

/-- The part that places a function. -/
def readAnchor (captures : Captures) : Except Absent Capture :=
  match captures.get? "function" with
  | some whole => .ok whole
  | none => lookUp captures "function.name"

/-- The function of a match. -/
def readFunction (transforms : Transforms) (settings : ExtractionSettings) (script : Script)
    (remarks : List Remark) (captures : Captures) : Except Absent (Option Function) :=
  if (captures.textD "function.name" "").isEmpty then .ok none
  else
    (readAnchor captures).map (fun anchor =>
      some (functionAt transforms settings script remarks captures anchor))

/-! ### All facts -/

/-- The facts of a script, up to a lookup that finds nothing. -/
def readFacts (grammar : Grammar) (settings : ExtractionSettings) (script : Script)
    (errorCount : Nat) (found : Found) : Except Absent Facts :=
  match readRemarks grammar.transforms script found with
  | .error absent => .error absent
  | .ok remarks =>
    (readEach (readFunction grammar.transforms settings script remarks) (found .functions)).map
      (factsOf grammar settings script errorCount found remarks)

end ShellSurvey.Survey
