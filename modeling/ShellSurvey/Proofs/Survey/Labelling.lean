import ShellSurvey.Proofs.Survey.Session

/-!
# The name of a file is a label

A survey is told the name of the file that a script is from, and writes it into the facts, into
every location, and into the events about the script. It makes no other use of it: a survey under
another name is the same survey with the other name written in (`run_under_name`).

Each kind of record has its own function `inFile`, which puts a name into its location. That the
parts of a survey commute with these functions is proved part by part. Two of them look at
locations: the documentation of a function at the lines of comments, and the order of the exports
at lines and columns. Neither looks at the file.
-/

namespace ShellSurvey

/-! ### Names written into records -/

/-- The location in the file of that name. -/
def Location.inFile (file : String) (location : Location) : Location :=
  { location with file := file }

/-- The function with its location in the file. -/
def Function.inFile (file : String) (function : Function) : Function :=
  { function with location := function.location.inFile file }

/-- The import with its location in the file. -/
def Import.inFile (file : String) (record : Import) : Import :=
  { record with location := record.location.inFile file }

/-- The export with its location in the file. -/
def Export.inFile (file : String) (record : Export) : Export :=
  { record with location := record.location.inFile file }

/-- The literal with its location in the file. -/
def StringLiteral.inFile (file : String) (literal : StringLiteral) : StringLiteral :=
  { literal with location := literal.location.inFile file }

/-- The comment with its location in the file. -/
def DocComment.inFile (file : String) (comment : DocComment) : DocComment :=
  { comment with location := comment.location.inFile file }

/-- The facts with all locations in the file. -/
def Facts.inFile (file : String) (facts : Facts) : Facts :=
  { facts with
    file := file
    functions := facts.functions.map (Function.inFile file)
    imports := facts.imports.map (Import.inFile file)
    exports := facts.exports.map (Export.inFile file)
    strings := facts.strings.map (StringLiteral.inFile file)
    docComments := facts.docComments.map (DocComment.inFile file) }

/-- The event with the file of that name, if it is about the script of a survey. -/
def Event.inFile (file : String) : Event → Event
  | .parseErrors _ count => .parseErrors file count
  | .dynamicImport _ line raw => .dynamicImport file line raw
  | .fileExtracted _ functions imports exports strings =>
    .fileExtracted file functions imports exports strings
  | event => event

/-- What a survey gives, with the file of that name. A failure and the session have none. -/
def Step.inFile {ε : Type} (file : String) (step : Step ε Facts) : Step ε Facts where
  result := step.result.map (Facts.inFile file)
  session := step.session
  events := step.events.map (Event.inFile file)

/-- The script in the file of that name. -/
def Script.inFile (file : String) (script : Script) : Script :=
  { script with file := file }

namespace Survey

variable (file other : String) (script : Script)

/-! ### Comments -/

/-- The remark with its location in the file. -/
def Remark.inFile (file : String) (remark : Remark) : Remark :=
  { remark with comment := remark.comment.inFile file }

/-- Remarks carry the name of the file in their locations only. -/
theorem remarks_inFile (bytes : List UInt8) (read : List Char → List Char)
    (found : List Captures) :
    remarks bytes file read found = (remarks bytes other read found).map (Remark.inFile file) := by
  rw [remarks, remarks, List.map_filterMap]
  refine List.filterMap_congr fun captures _ => ?_
  rw [remark?, remark?]
  cases captures.get? "doc.content" with
  | none => rfl
  | some capture =>
    dsimp only
    split_ifs
    · rfl
    · rfl

theorem allRemarks_inFile (transforms : Transforms) (found : Found) :
    allRemarks transforms (script.inFile file) found =
      (allRemarks transforms script found).map (Remark.inFile file) := by
  rw [allRemarks, allRemarks]
  cases transforms.comment with
  | none => rfl
  | some read => exact remarks_inFile file script.file script.bytes read (found .docComments)

theorem lineText?_inFile (remarks : List Remark) (line : Nat) :
    lineText? (remarks.map (Remark.inFile file)) line = lineText? remarks line := by
  rw [lineText?, lineText?, ← List.map_reverse, List.find?_map, Option.map_map]
  rfl

/-- Documentation does not depend on the name of the file. -/
theorem docAbove_inFile (remarks : List Remark) (line : Nat) :
    docAbove (remarks.map (Remark.inFile file)) line = docAbove remarks line := by
  have hrun : ∀ last, runUpTo (remarks.map (Remark.inFile file)) last = runUpTo remarks last := by
    intro last
    induction last with
    | zero => rfl
    | succ last ih => rw [runUpTo, runUpTo, lineText?_inFile, ih]
  rw [docAbove, docAbove, hrun]

/-! ### Functions -/

/-- Functions carry the name of the file in their locations only. -/
theorem function?_inFile (transforms : Transforms) (settings : ExtractionSettings)
    (remarks : List Remark) (captures : Captures) :
    function? transforms settings (script.inFile file) (remarks.map (Remark.inFile file))
        captures =
      (function? transforms settings script remarks captures).map (Function.inFile file) := by
  have hfunction : functionAt transforms settings (script.inFile file)
      (remarks.map (Remark.inFile file)) captures =
        Function.inFile file ∘ functionAt transforms settings script remarks captures := by
    funext anchor
    simp only [functionAt, docAbove_inFile, Function.comp_apply]
    rfl
  rw [function?, function?, hfunction]
  split_ifs
  · rfl
  · rw [Option.map_map]

/-! ### Imports -/

theorem allImports_inFile (transforms : Transforms) (found : Found) :
    allImports transforms (script.inFile file) found =
      (allImports transforms script found).map (Import.inFile file) := by
  rw [allImports, allImports]
  cases transforms.imported with
  | none => rfl
  | some read =>
    simp only [imports, List.map_map]
    rfl

theorem keptImports_inFile (settings : ExtractionSettings) (records : List Import) :
    keptImports settings (records.map (Import.inFile file)) =
      (keptImports settings records).map (Import.inFile file) := by
  rw [keptImports, keptImports, List.filter_map]
  rfl

/-! ### Exports -/

/-- The entry of a table with its location in the file. -/
def entryInFile (file : String) (entry : Nat × Export) : Nat × Export :=
  (entry.1, entry.2.inFile file)

theorem export?_inFile (captures : Captures) :
    export? file captures = (export? other captures).map (entryInFile file) := by
  rw [export?, export?]
  cases captures.get? "export.name" with
  | none => rfl
  | some name =>
    dsimp only
    split_ifs
    · rfl
    · rfl

theorem putExport_inFile (key : Nat) (record : Export) (table : List (Nat × Export)) :
    putExport key (record.inFile file) (table.map (entryInFile file)) =
      (putExport key record table).map (entryInFile file) := by
  induction table with
  | nil => rfl
  | cons entry rest ih =>
    by_cases hentry : entry.1 = key ∧ entry.2.name = record.name
    · by_cases hkind : entry.2.kind = .function
      · simp [putExport, entryInFile, Export.inFile, hentry, hkind]
      · simp [putExport, entryInFile, Export.inFile, hentry, hkind]
    · rw [List.map_cons, putExport, putExport, if_neg hentry, List.map_cons, ← ih]
      exact if_neg hentry

/-- The table of exports does not depend on the name of the file. -/
theorem exportTable_inFile (found : List Captures) :
    exportTable file found = (exportTable other found).map (entryInFile file) := by
  have hentries : found.filterMap (export? file) =
      (found.filterMap (export? other)).map (entryInFile file) := by
    rw [List.map_filterMap]
    exact List.filterMap_congr fun captures _ => export?_inFile file other captures
  have hfold : ∀ entries table : List (Nat × Export),
      entries.foldl (fun table entry =>
          putExport (entryInFile file entry).1 (entryInFile file entry).2 table)
          (table.map (entryInFile file)) =
        (entries.foldl (fun table entry => putExport entry.1 entry.2 table) table).map
          (entryInFile file) :=
    fun _ _ => List.foldl_hom _ fun table entry => putExport_inFile file entry.1 entry.2 table
  rw [exportTable, exportTable, hentries, List.foldl_map]
  exact hfold _ []

/-- Sorting exports does not look at the name of the file. -/
theorem exports_inFile (found : List Captures) :
    exports file found = (exports other found).map (Export.inFile file) := by
  -- The order compares lines and columns only.
  have hsort := List.map_mergeSort (f := Export.inFile file)
    (r := fun a b => startsBy a.location b.location)
    (s := fun a b => startsBy a.location b.location)
    (l := (exportTable other found).map (·.2)) fun _ _ _ _ => rfl
  rw [exports, exports, hsort, exportTable_inFile file other, List.map_map, List.map_map]
  rfl

/-! ### Strings -/

theorem string?_inFile (captures : Captures) :
    string? (script.inFile file) captures =
      (string? script captures).map (StringLiteral.inFile file) := by
  rw [string?, string?]
  cases captures.get? "string.value" with
  | none => rfl
  | some capture =>
    dsimp only
    split_ifs
    · -- The column of a here-document is changed after its file has been put in.
      rw [hereDocument, hereDocument]
      by_cases hindented : isIndented script.bytes capture.site.span.startByte
      · simp only [Script.inFile, hindented, if_true]
        rfl
      · simp only [Script.inFile, hindented]
        rfl
    · rfl

/-! ### Facts and events -/

/-- The facts carry the name of the file as a label only. -/
theorem assemble_inFile (grammar : Grammar) (settings : ExtractionSettings) (errorCount : Nat)
    (found : Found) :
    assemble grammar settings (script.inFile file) errorCount found =
      (assemble grammar settings script errorCount found).inFile file := by
  have hremarks := allRemarks_inFile file script grammar.transforms found
  have hfunctions : (found .functions).filterMap (function? grammar.transforms settings
      (script.inFile file) (allRemarks grammar.transforms (script.inFile file) found)) =
        ((found .functions).filterMap (function? grammar.transforms settings script
          (allRemarks grammar.transforms script found))).map (Function.inFile file) := by
    rw [hremarks, List.map_filterMap]
    exact List.filterMap_congr fun captures _ => function?_inFile file script _ _ _ captures
  have hstrings : (found .strings).filterMap (string? (script.inFile file)) =
      ((found .strings).filterMap (string? script)).map (StringLiteral.inFile file) := by
    rw [List.map_filterMap]
    exact List.filterMap_congr fun captures _ => string?_inFile file script captures
  have hexports : exports (script.inFile file).file (found .exports) =
      (exports script.file (found .exports)).map (Export.inFile file) :=
    exports_inFile file script.file (found .exports)
  rw [assemble, assemble, factsOf, factsOf, Facts.inFile, hfunctions, hstrings, hexports,
    allImports_inFile, keptImports_inFile, hremarks]
  simp only [List.map_map, apply_ite (List.map (StringLiteral.inFile file)), List.map_nil]
  rfl

/-- The events carry the name of the file as a label only. -/
theorem events_inFile (grammar : Grammar) (errorCount : Nat) (found : Found) :
    events grammar (script.inFile file) errorCount found =
      (events grammar script errorCount found).map (Event.inFile file) := by
  have herrors : errorEvents (script.inFile file).file errorCount =
      (errorEvents script.file errorCount).map (Event.inFile file) := by
    rw [errorEvents, errorEvents]
    split_ifs
    · rfl
    · rfl
  have himports : ∀ records : List Import,
      importEvents (script.inFile file).file (records.map (Import.inFile file)) =
        (importEvents script.file records).map (Event.inFile file) := by
    intro records
    rw [importEvents, importEvents, List.filter_map, List.map_map, List.map_map]
    rfl
  rw [events, events, List.map_append, herrors, allImports_inFile, himports]

theorem doneEvent_inFile (facts : Facts) :
    doneEvent (facts.inFile file) = (doneEvent facts).inFile file := by
  simp only [doneEvent, Facts.inFile, Event.inFile, List.length_map]

/-- Loading a language is not about a script. -/
theorem map_inFile_of_loading {events : List Event} {id module : String}
    (h : ∀ event ∈ events, event = .grammarLoaded id module) :
    events.map (Event.inFile file) = events := by
  refine (List.map_congr_left fun event hevent => ?_).trans (List.map_id events)
  rw [h event hevent]
  rfl

/-- **The name of a file is a label.** Whatever the grammar, the settings, the text and its tree,
and whatever was surveyed before, a survey under a name is the survey under no name with the name
written into the facts, into all locations and into the events about the script: the results differ
in nothing else, and the sessions afterwards not at all. -/
theorem run_under_name (grammar : Grammar) (settings : ExtractionSettings) (text : List Char)
    (root : Node) (session : Session) :
    run grammar settings (Script.ofText file text) root session =
      (run grammar settings (Script.ofText "" text) root session).inFile file := by
  have hscript : Script.ofText file text = (Script.ofText "" text).inFile file := rfl
  have hloading : (session.load grammar).events.map (Event.inFile file) =
      (session.load grammar).events := map_inFile_of_loading file fun _ => Session.eq_of_mem_load
  rw [hscript]
  generalize Script.ofText "" text = script
  have hbytes : (script.inFile file).bytes = script.bytes := rfl
  rw [run, run]
  cases hload : (session.load grammar).result with
  | error cause =>
    dsimp only [Step.inFile]
    rw [hloading]
    rfl
  | ok language =>
    -- The matches do not depend on the name, so both surveys gather the same.
    simp only [readFacts_eq, hbytes]
    generalize hgathered : gather grammar script.bytes root (plan grammar.transforms settings)
      Found.none (session.load grammar).session = gathered
    have hgathering : gathered.events.map (Event.inFile file) = gathered.events := by
      rw [← hgathered]
      exact map_inFile_of_loading file fun _ => eq_of_mem_gather
    cases gathered.cause with
    | some cause =>
      simp only [Step.inFile, List.map_append, hloading, hgathering, events_inFile]
      rfl
    | none =>
      simp only [Step.inFile, List.map_append, hloading, hgathering, events_inFile,
        assemble_inFile, doneEvent_inFile]
      rfl

end Survey

end ShellSurvey
