import ShellSurvey.Grammar.Definition
import ShellSurvey.Settings.Basic
import ShellSurvey.Survey.Comment
import ShellSurvey.Survey.Event

/-!
# Facts from matches

Once the queries have run, the facts of a script are a function of their matches and of the text.

* A function is told for each match with a name, with its parameters, its body, and the comment
  block above it.
* A statement that reads another file gives one import, of its first argument.
* A statement gives one export per name; one of a function is never taken back.
* A here-document starts where its first line does.
-/

namespace ShellSurvey

/-- A script with what is needed to tell its facts. -/
structure Script where
  /-- The text. -/
  text : List Char
  /-- The bytes of the text. -/
  bytes : List UInt8
  /-- The name of the file. -/
  file : String := ""

/-- The script of a text. -/
def Script.ofText (file : String) (text : List Char) : Script where
  text := text
  bytes := Text.Utf8.encode text
  file := file

namespace Survey

/-- The matches of each category. -/
abbrev Found := Query.Category → List Captures

/-! ### Functions -/

/-- The function of a match that is placed by the given part. -/
def functionAt (transforms : Transforms) (settings : ExtractionSettings) (script : Script)
    (remarks : List Remark) (captures : Captures) (anchor : Capture) : Function :=
  let name := captures.textD "function.name" ""
  let body := captures.textD "function.body" ""
  let params := captures.textD "function.params" body
  let location := Location.ofSpan script.file anchor.site.span
  { name := name
    params :=
      match transforms.params with
      | some infer => infer params.toList
      | none => []
    body :=
      match transforms.body with
      | some normal => String.ofList (normal body.toList)
      | none => body
    isExported :=
      match transforms.exported with
      | some exported => exported name.toList script.text
      | none => false
    location := location
    doc := if settings.attachDocComments then docAbove remarks location.line else none }

/-- The function of a match. -/
def function? (transforms : Transforms) (settings : ExtractionSettings) (script : Script)
    (remarks : List Remark) (captures : Captures) : Option Function :=
  if (captures.textD "function.name" "").isEmpty then none
  else
    (captures.first? ["function", "function.name"]).map
      (functionAt transforms settings script remarks captures)

/-! ### Imports -/

/-- The captured part that stands for the statement of an import. -/
def importStatement? (captures : Captures) : Option Capture :=
  captures.first? ["import", "import.from"]

/-- Whether a match is of a command that reads another file. -/
def isSourceMatch (captures : Captures) : Bool :=
  match captures.get? "_cmd" with
  | some word => word.text == "source" || word.text == "."
  | none => true

/-- The byte at which the argument of an import starts. -/
def argumentStart (captures : Captures) : Nat :=
  match captures.get? "import.from" with
  | some argument => argument.site.span.startByte
  | none => 0

/-- Adds a match to the statements read so far, each with the match of its first argument. -/
def putImport (key : Nat) (captures : Captures) : List (Nat × Captures) → List (Nat × Captures)
  | [] => [(key, captures)]
  | entry :: rest =>
    if entry.1 = key then
      (if argumentStart captures < argumentStart entry.2 then (key, captures) else entry) :: rest
    else entry :: putImport key captures rest

/-- Adds a match to the statements, unless it is of another command. -/
def stepImport (table : List (Nat × Captures)) (captures : Captures) : List (Nat × Captures) :=
  if isSourceMatch captures then
    match importStatement? captures with
    | some statement => putImport statement.site.span.startByte captures table
    | none => table
  else table

/-- The statements that read another file, each with the match of its first argument. -/
def importTable (found : List Captures) : List (Nat × Captures) :=
  found.foldl stepImport []

/-- The imports of the matches, with unknown paths. -/
def imports (read : Captures → Import) (file : String) (found : List Captures) : List Import :=
  (importTable found).map (fun entry =>
    let record := read entry.2
    { record with location := { record.location with file := file } })

/-- The imports of a script, with unknown paths. -/
def allImports (transforms : Transforms) (script : Script) (found : Found) : List Import :=
  match transforms.imported with
  | some read => imports read script.file (found .imports)
  | none => []

/-- The imports that the settings keep. -/
def keptImports (settings : ExtractionSettings) (records : List Import) : List Import :=
  records.filter (fun record => settings.includeDynamicImports || !record.isDynamic)

/-- The events of imports with unknown paths. -/
def importEvents (file : String) (records : List Import) : List Event :=
  (records.filter (·.isDynamic)).map (fun record =>
    .dynamicImport file record.location.line record.raw)

/-! ### Exports -/

/-- What a name stands for under a flag: a function if the flag has an `f`. -/
def exportKind : List Char → ExportKind
  | '-' :: rest => if rest.contains 'f' then .function else .variable
  | _ => .variable

/-- Adds an export to those read so far, under the start of its statement and its name. -/
def putExport (key : Nat) (record : Export) : List (Nat × Export) → List (Nat × Export)
  | [] => [(key, record)]
  | entry :: rest =>
    if entry.1 = key ∧ entry.2.name = record.name then
      (if entry.2.kind = .function then entry else (key, record)) :: rest
    else entry :: putExport key record rest

/-- The export of a match, under the start of its statement. -/
def export? (file : String) (captures : Captures) : Option (Nat × Export) :=
  match captures.get? "export.name" with
  | none => none
  | some name =>
    if name.text.isEmpty then none
    else
      let statement := (captures.get? "export").getD name
      some (statement.site.span.startByte,
        { name := name.text, kind := exportKind (captures.textD "_flag" "").toList,
          location := Location.ofSpan file statement.site.span })

/-- The exports of the matches under the starts of their statements. -/
def exportTable (file : String) (found : List Captures) : List (Nat × Export) :=
  (found.filterMap (export? file)).foldl (fun table entry => putExport entry.1 entry.2 table) []

/-- Whether a location starts no later than another one. -/
def startsBy (a b : Location) : Bool :=
  a.line < b.line || (a.line == b.line && a.column ≤ b.column)

/-- The exports of the matches in order of their statements. -/
def exports (file : String) (found : List Captures) : List Export :=
  ((exportTable file found).map (·.2)).mergeSort (fun a b => startsBy a.location b.location)

/-! ### Strings -/

/-- The index of the first byte of the line on which a byte stands. -/
def lineStart (bytes : List UInt8) (start : Nat) : Nat :=
  let before := bytes.take start
  before.length - (before.reverse.takeWhile (· != 10)).length

/-- Whether a here-document has only spaces and tabs before it on its line. -/
def isIndented (bytes : List UInt8) (start : Nat) : Bool :=
  decide (lineStart bytes start < start) &&
    (Text.Utf8.slice bytes (lineStart bytes start) start).all (fun b => b == 32 || b == 9)

/-- Whether a here-document is of the kind that may be indented. -/
def isTabStripped (site : Site) : Bool :=
  match site.siblings with
  | some kinds => kinds.contains "<<-"
  | none => false

/-- The kind of node that is a here-document. -/
def hereDocumentKind : String := "heredoc_body"

/-- A here-document, from the start of its first line. -/
def hereDocument (script : Script) (site : Site) : StringLiteral :=
  let indented := isIndented script.bytes site.span.startByte
  let start :=
    if indented then lineStart script.bytes site.span.startByte else site.span.startByte
  let text := Text.Utf8.decode (Text.Utf8.slice script.bytes start site.span.endByte)
  let location := Location.ofSpan script.file site.span
  { value := String.ofList (Script.normalHereDocument text (isTabStripped site))
    kind := site.kind
    location := if indented then { location with column := 1 } else location }

/-- The string literal of a match. -/
def string? (script : Script) (captures : Captures) : Option StringLiteral :=
  match captures.get? "string.value" with
  | none => none
  | some capture =>
    if capture.site.kind = hereDocumentKind then some (hereDocument script capture.site)
    else
      some
        { value := capture.text, kind := capture.site.kind,
          location := Location.ofSpan script.file capture.site.span }

/-! ### All facts -/

/-- The comments of a script. -/
def allRemarks (transforms : Transforms) (script : Script) (found : Found) : List Remark :=
  match transforms.comment with
  | some read => remarks script.bytes script.file read (found .docComments)
  | none => []

/-- The facts of a script, given its comments and functions. -/
def factsOf (grammar : Grammar) (settings : ExtractionSettings) (script : Script)
    (errorCount : Nat) (found : Found) (remarks : List Remark) (functions : List Function) :
    Facts where
  file := script.file
  grammar := grammar.id
  functions := functions
  imports := keptImports settings (allImports grammar.transforms script found)
  exports := exports script.file (found .exports)
  strings :=
    if settings.includeStrings then (found .strings).filterMap (string? script) else []
  docComments := remarks.map (·.comment)
  errorCount := errorCount

/-- The facts of a script, given the matches and the number of faulty nodes. -/
def assemble (grammar : Grammar) (settings : ExtractionSettings) (script : Script)
    (errorCount : Nat) (found : Found) : Facts :=
  let remarks := allRemarks grammar.transforms script found
  factsOf grammar settings script errorCount found remarks
    ((found .functions).filterMap (function? grammar.transforms settings script remarks))

/-- The event of faulty nodes. -/
def errorEvents (file : String) (errorCount : Nat) : List Event :=
  if errorCount = 0 then [] else [.parseErrors file errorCount]

/-- The event of facts that were told. -/
def doneEvent (facts : Facts) : Event :=
  .fileExtracted facts.file facts.functions.length facts.imports.length facts.exports.length
    facts.strings.length

/-- The events while the facts of a script are told. -/
def events (grammar : Grammar) (script : Script) (errorCount : Nat) (found : Found) :
    List Event :=
  errorEvents script.file errorCount ++
    importEvents script.file (allImports grammar.transforms script found)

end Survey

end ShellSurvey
