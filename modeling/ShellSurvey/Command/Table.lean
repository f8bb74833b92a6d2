import ShellSurvey.Command.Layout
import ShellSurvey.Facts
import ShellSurvey.Text.Numeral

/-!
# Tables

The facts of a script for a reader: a title, a table of its functions, and a line for each import
and each exported variable. Columns are as wide as their widest cell, with two spaces between
them, and the title is laid out over the width of the table.
-/

namespace ShellSurvey.Command

/-! ### Functions -/

/-- The heading and the side of each column. -/
def columns : List (List Char × Side) :=
  [("line".toList, .right), ("function".toList, .left), ("params".toList, .left),
    ("exported".toList, .middle)]

/-- The headings of the columns. -/
def headings : List (List Char) :=
  columns.map (·.1)

/-- The cells of a function. -/
def functionCells (f : Function) : List (List Char) :=
  [Text.Numeral.ofNat f.location.line, shown f.name, shown (Param.labels f.params),
    (if f.isExported then "yes" else "no").toList]

/-- The widths of the columns for the given rows. -/
def columnWidths (rows : List (List (List Char))) : List Nat :=
  rows.foldl (fun widths cells =>
    (widths.zip cells).map (fun entry => max entry.1 (widest entry.2))) (headings.map widest)

/-- The lines of each cell of a row. -/
def laidCells (widths : List Nat) (cells : List (List Char)) : List (Nat × List (List Char)) :=
  (columns.zip (widths.zip cells)).map (fun entry =>
    (entry.2.1, layOut .cut entry.1.2 entry.2.1 entry.2.2))

/-- The lines of a row, as many as its highest cell has. -/
def rowLines (widths : List Nat) (cells : List (List Char)) : List (List Char) :=
  let laid := laidCells widths cells
  let height := laid.foldl (fun most cell => max most cell.2.length) 0
  (List.range height).map (fun i =>
    (spaces 2).intercalate (laid.map (fun cell => cell.2[i]?.getD (spaces cell.1))))

/-- The title and the table of the functions. -/
def tableLines (facts : Facts) : List (List Char) :=
  let rows := facts.functions.map functionCells
  let widths := columnWidths rows
  let width := widths.foldl (· + ·) 0 + 2 * (widths.length - 1)
  layOut .fold .left width (shown facts.file) ++ (headings :: rows).flatMap (rowLines widths)

/-! ### Imports and exports -/

/-- The start of a line for something at a line of the script. -/
def lineStart (location : Location) (word : String) : List Char :=
  let digits := Text.Numeral.ofNat location.line
  spaces 2 ++ spaces (4 - digits.length) ++ digits ++ ' ' :: word.toList ++ [' ']

/-- The lines of an import. -/
def importLines (i : Import) : List (List Char) :=
  let target :=
    if i.isResolved then shown i.fromPath
    else "<dynamic: ".toList ++ shown i.raw ++ ['>']
  plainLines (lineStart i.location "source" ++ target)

/-- The lines of an export; a function is told by the table. -/
def exportLines (e : Export) : List (List Char) :=
  match e.kind with
  | .variable => plainLines (lineStart e.location "export" ++ shown e.name)
  | .function => []

/-- The facts of a script for a reader. -/
def factsText (facts : Facts) : String :=
  let all :=
    tableLines facts ++ facts.imports.flatMap importLines ++ facts.exports.flatMap exportLines ++
      [[]]
  String.ofList (all.flatMap (· ++ ['\n']))

end ShellSurvey.Command
