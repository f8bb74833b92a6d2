import Mathlib.Data.List.DropRight
import Mathlib.Data.List.Forall2
import ShellSurvey.Proofs.Survey.Session
import ShellSurvey.Proofs.Text.Split
import ShellSurvey.Proofs.Tree.Places

/-!
# Here-documents

A parser lets the body of a here-document start behind the indentation of its first line. The value
that is told starts with the line instead, if nothing but spaces and tabs comes before the body
there, and so does the location that is told with it (`valueStart`).

A here-document behind `<<-` loses the tabs at the front of each of its lines, the first one
included, and nothing else (`tabsRemoved_normalHereDocument`). Any other one is kept as it is.
-/

namespace ShellSurvey

/-- The bytes before a byte on its line. -/
def lineBefore (source : List UInt8) (byte : Nat) : List UInt8 :=
  (source.take byte).rtakeWhile (· != 10)

/-- Where a byte of a source stands: its row counts the line feeds before it, and its column the
bytes since the last of them. -/
def Point.ofByte (source : List UInt8) (byte : Nat) : Point where
  row := (source.take byte).count 10
  column := (lineBefore source byte).length

namespace Survey

/-! ### Where a value starts -/

/-- Where the value of a here-document starts, given where its body does: with the line, if there
are only spaces and tabs before the body. -/
def valueStart (source : List UInt8) (start : Nat) : Nat :=
  if (lineBefore source start).all fun byte => byte == 32 || byte == 9 then
    ((source.take start).rdropWhile (· != 10)).length
  else start

section Start

variable (source : List UInt8) (start : Nat)

theorem lineStart_eq :
    lineStart source start = ((source.take start).rdropWhile (· != 10)).length := by
  have hsplit := congrArg List.length
    (List.rdropWhile_append_rtakeWhile (p := (· != (10 : UInt8))) (l := source.take start))
  have hline : ((source.take start).reverse.takeWhile (· != 10)).length =
      ((source.take start).rtakeWhile (· != 10)).length := List.length_reverse.symm
  rw [List.length_append] at hsplit
  rw [lineStart, hline]
  omega

theorem lineStart_le : lineStart source start ≤ start := by
  have hprefix := (List.rdropWhile_prefix (· != 10) (source.take start)).length_le
  rw [lineStart_eq]
  exact hprefix.trans (List.length_take_le start source)

theorem take_lineStart :
    source.take (lineStart source start) = (source.take start).rdropWhile (· != 10) := by
  have hprefix := (List.rdropWhile_prefix (· != 10) (source.take start)).trans
    (List.take_prefix start source)
  rw [lineStart_eq]
  exact (List.prefix_iff_eq_take.mp hprefix).symm

/-- The bytes before a byte are those of earlier lines and those on its line. -/
theorem take_lineStart_append :
    source.take (lineStart source start) ++ lineBefore source start = source.take start := by
  rw [take_lineStart]
  exact List.rdropWhile_append_rtakeWhile

/-- What is before a position in its line reaches back to the start of the line. -/
theorem slice_lineStart :
    Text.Utf8.slice source (lineStart source start) start = lineBefore source start := by
  have hlength : (source.take (lineStart source start)).length = lineStart source start := by
    rw [take_lineStart, lineStart_eq]
  rw [Text.Utf8.slice, ← List.drop_take, ← take_lineStart_append, List.drop_left' hlength]

/-- The start of a line is on the same row, in the first column. -/
theorem ofByte_lineStart :
    Point.ofByte source (lineStart source start) = ⟨(Point.ofByte source start).row, 0⟩ := by
  have hfeeds : (lineBefore source start).count 10 = 0 :=
    List.count_eq_zero.mpr fun hmem => by simpa using List.mem_rtakeWhile_imp hmem
  have hrow : (source.take (lineStart source start)).count 10 = (source.take start).count 10 := by
    rw [← take_lineStart_append source start, List.count_append, hfeeds, Nat.add_zero]
  -- The bytes before the start of the line end in a line feed, if there are any.
  have hcolumn : lineBefore source (lineStart source start) = [] := by
    rw [lineBefore, take_lineStart]
    exact List.rtakeWhile_eq_nil_iff.mpr fun hne => List.rdropWhile_last_not _ _ hne
  rw [Point.ofByte, hrow, hcolumn]
  rfl

/-- A position is indented if there is something before it in its line, and only spaces and tabs. -/
theorem isIndented_iff :
    isIndented source start ↔ lineStart source start < start ∧
      (lineBefore source start).all fun byte => byte == 32 || byte == 9 := by
  rw [isIndented, slice_lineStart, Bool.and_eq_true, decide_eq_true_iff]

variable {source start}

theorem valueStart_of_isIndented (h : isIndented source start) :
    valueStart source start = lineStart source start := by
  rw [valueStart, if_pos ((isIndented_iff source start).mp h).2, lineStart_eq]

theorem valueStart_of_not_isIndented (h : ¬isIndented source start) :
    valueStart source start = start := by
  rw [valueStart, ← lineStart_eq]
  split_ifs with hblank
  · -- There is nothing before the body on its line.
    have hle := lineStart_le source start
    have hnot : ¬lineStart source start < start := fun hlt =>
      h ((isIndented_iff source start).mpr ⟨hlt, hblank⟩)
    omega
  · rfl

end Start

/-! ### Tabs at the front of lines -/

/-- A value is an original text that has lost the tabs at the front of its lines: there are as many
lines, and each of them is what is left of its original behind all the tabs there. -/
def TabsRemoved (original value : List Char) : Prop :=
  List.Forall₂
    (fun line kept => ∃ tabs, (∀ c ∈ tabs, c = '\t') ∧ line = tabs ++ kept ∧
      kept.head? ≠ some '\t')
    (Text.splitWhere (· == '\n') original) (Text.splitWhere (· == '\n') value)

/-- Removing tabs keeps the lines and shortens each in front. -/
theorem splitWhere_normalHereDocument (text : List Char) :
    Text.splitWhere (· == '\n') (Script.normalHereDocument text true) =
      (Text.splitWhere (· == '\n') text).map (List.dropWhile (· == '\t')) := by
  have hne : (Text.splitWhere (· == '\n') text).map (List.dropWhile (· == '\t')) ≠ [] :=
    List.map_eq_nil_iff.not.mpr (Text.splitWhere_ne_nil _ text)
  refine Text.splitWhere_joinWith hne (fun piece hpiece c hc => ?_) (beq_self_eq_true '\n')
  obtain ⟨line, hline, rfl⟩ := List.mem_map.mp hpiece
  have hc : c ∈ line := (List.dropWhile_suffix (· == '\t')).subset hc
  have hcut := Text.not_cut_of_mem_splitWhere hline hc
  exact hcut

/-- The tabs in front of each line are removed, and nothing else is. -/
theorem tabsRemoved_normalHereDocument (text : List Char) :
    TabsRemoved text (Script.normalHereDocument text true) := by
  rw [TabsRemoved, splitWhere_normalHereDocument, List.forall₂_map_right_iff, List.forall₂_same]
  intro line _
  refine ⟨line.takeWhile (· == '\t'), fun c hc => ?_, List.takeWhile_append_dropWhile.symm, ?_⟩
  · have htab := List.mem_takeWhile_imp hc
    exact beq_iff_eq.mp htab
  · intro htab
    have hnot := List.head?_dropWhile_not (· == '\t') line
    rw [htab] at hnot
    exact absurd hnot (by decide)

/-- Normalizing a second time changes nothing. -/
theorem normalHereDocument_idem (text : List Char) (stripped : Bool) :
    Script.normalHereDocument (Script.normalHereDocument text stripped) stripped =
      Script.normalHereDocument text stripped := by
  cases stripped with
  | false => rfl
  | true =>
    -- The lines of the result are the stripped ones, so stripping it strips them once more.
    rw [Script.normalHereDocument, if_pos rfl, splitWhere_normalHereDocument, List.map_map]
    refine congrArg (Text.joinWith '\n') (List.map_congr_left fun line _ => ?_)
    exact List.dropWhile_idempotent (· == '\t') line

end Survey

/-! ### What is told of a here-document -/

/-- Whether the parent of the node at a place has a child of the kind. -/
def Place.HasSibling (place : Place) (kind : String) : Prop :=
  ∃ frame ∈ place.frame?, ∃ node ∈ frame.parent.children, node.kind = kind

namespace Survey

/-- The text of the here-document at a place, from where its value starts. -/
def hereText (script : Script) (place : Place) : List Char :=
  Text.Utf8.decode (Text.Utf8.slice script.bytes
    (valueStart script.bytes place.node.span.startByte) place.node.span.endByte)

/-- What the literal of the here-document at a place has to be. -/
structure Rendered (script : Script) (place : Place) (literal : StringLiteral) : Prop where
  kind : literal.kind = place.node.kind
  /-- It is located where its value starts. -/
  location : literal.location = Location.ofSpan script.file
    { place.node.span with
      start := Point.ofByte script.bytes (valueStart script.bytes place.node.span.startByte) }
  /-- Without `<<-` the text is kept. -/
  plain : ¬place.HasSibling "<<-" → literal.value.toList = hereText script place
  /-- With it the lines lose the tabs at their front, and have no more to lose. -/
  stripped : place.HasSibling "<<-" →
    TabsRemoved (hereText script place) literal.value.toList ∧
      Script.normalHereDocument literal.value.toList true = literal.value.toList

/-- The string literal at a place, if there is one. -/
def stringAt? (script : Script) (place : Place) : Option StringLiteral :=
  if Query.isString place then
    string? script [("string.value", Query.capture script.bytes place.siblingKinds place.node)]
  else none

/-- Tabs are removed just if the operator of the document says so. -/
theorem isTabStripped_capture_iff (source : List UInt8) (place : Place) :
    isTabStripped (Query.capture source place.siblingKinds place.node).site ↔
      place.HasSibling "<<-" := by
  rw [Place.HasSibling, isTabStripped, Query.capture, Place.siblingKinds]
  cases place.frame? with
  | none => simp
  | some frame => simp

theorem hereDocument_eq {script : Script} {site : Site}
    (hstart : site.span.start = Point.ofByte script.bytes site.span.startByte) :
    hereDocument script site =
      { value := String.ofList (Script.normalHereDocument
          (Text.Utf8.decode (Text.Utf8.slice script.bytes
            (valueStart script.bytes site.span.startByte) site.span.endByte))
          (isTabStripped site))
        kind := site.kind
        location := Location.ofSpan script.file
          { site.span with
            start := Point.ofByte script.bytes
              (valueStart script.bytes site.span.startByte) } } := by
  rw [hereDocument]
  by_cases hindented : isIndented script.bytes site.span.startByte
  · -- Only the column moves, since the start of the line is on the same row.
    simp only [hindented, if_true, valueStart_of_isIndented hindented, ofByte_lineStart,
      Location.ofSpan, hstart]
  · simp only [hindented, valueStart_of_not_isIndented hindented, ← hstart, Bool.false_eq_true,
      if_false]

/-- A document is rendered as `Rendered` says, if its node stands where its bytes do. -/
theorem rendered_hereDocument {script : Script} {place : Place}
    (hstart : place.node.span.start = Point.ofByte script.bytes place.node.span.startByte) :
    Rendered script place (hereDocument script
      (Query.capture script.bytes place.siblingKinds place.node).site) := by
  have hsibling := isTabStripped_capture_iff script.bytes place
  rw [hereDocument_eq hstart]
  refine ⟨rfl, rfl, fun hplain => ?_, fun hstripped => ?_⟩
  · rw [← hsibling, Bool.not_eq_true] at hplain
    rw [String.toList_ofList, hplain]
    rfl
  · rw [String.toList_ofList, hsibling.mpr hstripped]
    exact ⟨tabsRemoved_normalHereDocument _, normalHereDocument_idem _ true⟩

theorem string?_of_get? {script : Script} {captures : Captures} {capture : Capture}
    (h : captures.get? "string.value" = some capture)
    (hkind : capture.site.kind = hereDocumentKind) :
    string? script captures = some (hereDocument script capture.site) := by
  rw [string?, h]
  exact if_pos hkind

/-- The string literals are found by going through all places. -/
theorem filterMap_string?_run (script : Script) (root : Node) :
    (Query.run .strings script.bytes root).filterMap (string? script) =
      (Place.all root).filterMap (stringAt? script) := by
  rw [Query.run, List.filterMap_flatMap, List.filterMap_eq_flatMap_toList]
  refine List.flatMap_congr fun place _ => ?_
  rw [Query.matchesAt, Query.stringsAt, stringAt?]
  split_ifs with hstring
  · rw [List.filterMap_cons, List.filterMap_nil]
    cases string? script _ <;> rfl
  · rfl

/-- **A here-document is told from the start of its line**, if only spaces and tabs come before it
there, and without the tabs at the front of its lines, if it is one of `<<-`. This holds of every
node whose start is given as the same place by its byte and by its row and column: of the literal
that a survey tells at its place in a tree, and of the literal of any match of it. -/
theorem hereDocuments_rendered {session : Session} (h : session.Reached Grammar.standard)
    {settings : ExtractionSettings} (hstrings : settings.includeStrings = true) (script : Script)
    (root : Node) :
    ∃ facts, (run Grammar.standard settings script root session).result = .ok facts ∧
      facts.strings = (Place.all root).filterMap (stringAt? script) ∧
      ∀ place : Place, place.node.kind = "heredoc_body" →
        place.node.span.start = Point.ofByte script.bytes place.node.span.startByte →
        ∃ literal, Rendered script place literal ∧
          (place.node.named → stringAt? script place = some literal) ∧
          ∀ captures : Captures,
            captures.get? "string.value" =
              some (Query.capture script.bytes place.siblingKinds place.node) →
            string? script captures = some literal := by
  refine ⟨_, run_standard h settings script root, ?_, fun place hkind hstart => ?_⟩
  · rw [← filterMap_string?_run]
    exact if_pos hstrings
  · refine ⟨_, rendered_hereDocument hstart, fun hnamed => ?_, fun captures hget => ?_⟩
    · have hstring : Query.isString place := by
        simp [Query.isString, Query.stringKinds, hnamed, hkind]
      rw [stringAt?, if_pos hstring]
      exact string?_of_get? rfl hkind
    · exact string?_of_get? hget hkind

/-- A script with an indented here-document. -/
def indentedScript : Script :=
  Script.ofText "t.sh" "cat <<-E\n\ta\n\t\tb\nE\n".toList

/-- The redirection from the here-document, whose body starts behind the first tab. -/
def indentedRedirect : Node :=
  ⟨"heredoc_redirect", true, false, none, ⟨4, 17, ⟨0, 4⟩, ⟨3, 1⟩⟩,
    [Node.onFirstLine "<<-" false none 4 7 [], Node.onFirstLine "heredoc_start" true none 7 8 [],
      ⟨"heredoc_body", true, false, none, ⟨10, 16, ⟨1, 1⟩, ⟨3, 0⟩⟩, []⟩,
      Node.onRow 3 16 "heredoc_end" true none 16 17 []]⟩

/-- The command with the redirection. -/
def indentedStatement : Node :=
  ⟨"redirected_statement", true, false, none, ⟨0, 17, ⟨0, 0⟩, ⟨3, 1⟩⟩,
    [Node.onFirstLine "command" true (some "body") 0 3 [], indentedRedirect]⟩

/-- The place of the body. -/
def indentedPlace : Place where
  node := ⟨"heredoc_body", true, false, none, ⟨10, 16, ⟨1, 1⟩, ⟨3, 0⟩⟩, []⟩
  frames := [⟨indentedRedirect, indentedRedirect.children.take 2⟩,
    ⟨indentedStatement, indentedStatement.children.take 1⟩]

/-- The tabs in front of the first line are removed too, though the node starts behind them. -/
theorem hereDocuments_rendered_indented :
    Session.Reached Grammar.standard {} ∧
      ({} : ExtractionSettings).includeStrings = true ∧
      indentedPlace ∈ Place.all indentedStatement ∧
      indentedPlace.node.span.start = Point.ofByte indentedScript.bytes 10 ∧
      indentedPlace.HasSibling "<<-" ∧
      ∃ facts literal,
        (run Grammar.standard {} indentedScript indentedStatement {}).result = .ok facts ∧
        facts.strings = [literal] ∧ Rendered indentedScript indentedPlace literal ∧
        literal = ⟨"a\nb\n", "heredoc_body", ⟨"t.sh", 2, 1, 4, 1⟩⟩ := by
  have hincluded : ({} : ExtractionSettings).includeStrings = true := rfl
  have hplace : indentedPlace ∈ Place.all indentedStatement := List.mem_of_getElem? (i := 5) rfl
  have hstart : indentedPlace.node.span.start = Point.ofByte indentedScript.bytes 10 := by
    decide +kernel
  have hsibling : indentedPlace.HasSibling "<<-" := ⟨_, rfl, _, List.mem_cons_self, rfl⟩
  obtain ⟨facts, hfacts, hstrings, hplaces⟩ :=
    hereDocuments_rendered .fresh hincluded indentedScript indentedStatement
  obtain ⟨literal, hrendered, htold, -⟩ := hplaces indentedPlace rfl hstart
  have hliteral : stringAt? indentedScript indentedPlace =
      some ⟨"a\nb\n", "heredoc_body", ⟨"t.sh", 2, 1, 4, 1⟩⟩ := by
    decide +kernel
  obtain rfl := Option.some.inj (hliteral.symm.trans (htold rfl))
  refine ⟨.fresh, hincluded, hplace, hstart, hsibling, facts, _, hfacts, ?_, hrendered, rfl⟩
  rw [hstrings]
  decide +kernel

end Survey

end ShellSurvey
