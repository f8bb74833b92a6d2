import ShellSurvey.Proofs.Survey.Session
import ShellSurvey.Proofs.Survey.Table
import ShellSurvey.Proofs.Tree.Places

/-!
# One import per statement

The query for imports matches a command once for each of its arguments, and once more for each
word in its name. The table keeps one match per command, that of the argument which starts first.

In a tree whose siblings come in order, the match that stays is that of the first argument the
query looks at: a `Reading`. So the imports of a script are the records of the readings of its
tree (`allImports_eq_readings`).

The query looks at seven kinds of arguments only. An argument of another kind before the path is
passed over, and then the import is of a later one (`firstArgument_iff`).
-/

namespace ShellSurvey.Survey

open Query

/-! ### Readings -/

/-- Whether a node gives its command a name that reads another file. -/
def NamesSource (source : List UInt8) (node : Node) : Prop :=
  node.isNamed "command_name" ∧ node.hasRole "name" ∧
    ∃ word ∈ node.children, word.isNamed "word" ∧
      (String.ofList (word.text source) = "source" ∨ String.ofList (word.text source) = ".")

/-- Whether a node is an argument that the query looks at. -/
def IsPath (node : Node) : Prop :=
  node.named ∧ node.kind ∈ argumentKinds ∧ node.hasRole "argument"

/-- Whether the query finds a command at one of its arguments, given the children before it. -/
structure Matched (source : List UInt8) (command : Node) (earlier : List Node) (path : Node) :
    Prop where
  /-- The command is one. -/
  command : command.isNamed "command"
  /-- The query looks at the argument. -/
  path : IsPath path
  /-- The name of the command comes before it. -/
  name : ∃ name ∈ earlier, NamesSource source name

/-- A command and one of its children, with the children before it. -/
@[ext]
structure Reading where
  /-- The command. -/
  command : Node
  /-- The children of the command before the path. -/
  earlier : List Node
  /-- The child that tells which file is read. -/
  path : Node
  deriving Inhabited

namespace Reading

/-- Whether the path is the first argument at which the query finds the command. -/
structure Valid (source : List UInt8) (reading : Reading) : Prop where
  /-- The query finds the command there. -/
  matched : Matched source reading.command reading.earlier reading.path
  /-- The path is a child of the command. -/
  children : ∃ later, reading.command.children = reading.earlier ++ reading.path :: later
  /-- The query does not find the command at a child before. -/
  first : ∀ before node after, reading.earlier = before ++ node :: after →
    ¬Matched source reading.command before node

/-- The import of a reading. -/
def record (script : Script) (reading : Reading) : Import :=
  let path := Text.unquote (reading.path.text script.bytes)
  let known := if Import.isDynamicPath path then "" else String.ofList path
  { name := known
    fromPath := known
    location := Location.ofSpan script.file reading.command.span
    isDynamic := Import.isDynamicPath path
    raw := String.ofList (reading.path.text script.bytes) }

/-- A command has at most one reading. -/
theorem Valid.unique {source : List UInt8} {reading other : Reading} (h : reading.Valid source)
    (h' : other.Valid source) (hcommand : reading.command = other.command) : reading = other := by
  obtain ⟨later, hlater⟩ := h.children
  obtain ⟨later', hlater'⟩ := h'.children
  have hsplit : reading.earlier ++ reading.path :: later =
      other.earlier ++ other.path :: later' := by
    rw [← hlater, ← hlater', hcommand]
  -- One of the two paths stands before the other one, or both are at the same place.
  rcases List.append_eq_append_iff.mp hsplit with
    ⟨between, hearlier, hpath⟩ | ⟨between, hearlier, hpath⟩
  · cases between with
    | nil =>
      rw [List.append_nil] at hearlier
      exact Reading.ext hcommand hearlier.symm (List.cons.inj hpath).1
    | cons first rest =>
      obtain ⟨rfl, -⟩ := List.cons.inj hpath
      exact absurd (hcommand ▸ h.matched) (h'.first _ _ _ hearlier)
  · cases between with
    | nil =>
      rw [List.append_nil] at hearlier
      exact Reading.ext hcommand hearlier (List.cons.inj hpath).1.symm
    | cons first rest =>
      obtain ⟨rfl, -⟩ := List.cons.inj hpath
      exact absurd (hcommand ▸ h'.matched) (h.first _ _ _ hearlier)

end Reading

/-! ### Matches at a place -/

/-- What a match tells about the command and the argument it is of. -/
structure MatchOf (source : List UInt8) (command path : Node) (captures : Captures) : Prop where
  /-- The name of the command reads another file. -/
  isSource : isSourceMatch captures
  /-- The statement is the command. -/
  statement : (importStatement? captures).map (·.site.span) = some command.span
  /-- The path is the argument. -/
  path : (captures.get? "import.from").map (fun capture => (capture.site.span, capture.text)) =
    some (path.span, String.ofList (path.text source))

/-- The words that ask for a source are the name and the dot. -/
theorem mem_sourceWordsOf {source : List UInt8} {name word : Node} :
    word ∈ sourceWordsOf source name ↔ word ∈ name.children ∧ word.isNamed "word" ∧
      (String.ofList (word.text source) = "source" ∨ String.ofList (word.text source) = ".") := by
  simp [sourceWordsOf, sourceWords]

/-- A match at a place is that of an argument behind the name of its command. -/
theorem mem_importsAt {source : List UInt8} {place : Place} {captures : Captures}
    (h : captures ∈ importsAt source place) :
    ∃ frame above, place.frames = frame :: above ∧
      Matched source frame.parent frame.earlier place.node ∧
      MatchOf source frame.parent place.node captures := by
  rw [importsAt] at h
  cases hframes : place.frames with
  | nil => simp [hframes] at h
  | cons frame above =>
    simp only [hframes] at h
    split_ifs at h with hpath
    · simp only [Bool.and_eq_true, List.contains_iff_mem] at hpath
      obtain ⟨⟨⟨hnamed, hkind⟩, hrole⟩, hcommand⟩ := hpath
      obtain ⟨name, hname, hcaptures⟩ := List.mem_flatMap.mp h
      obtain ⟨word, hword, rfl⟩ := List.mem_map.mp hcaptures
      rw [List.mem_filter, Bool.and_eq_true] at hname
      have hword' := mem_sourceWordsOf.mp hword
      refine ⟨frame, above, rfl, ?_, ?_⟩
      · exact ⟨hcommand, ⟨hnamed, hkind, hrole⟩, name, hname.1, hname.2.1, hname.2.2, word, hword'⟩
      · refine ⟨?_, rfl, rfl⟩
        have hget : ((capture source (childKinds name) word).text == "source" ||
            (capture source (childKinds name) word).text == ".") = true := by
          simpa [capture] using hword'.2.2
        exact hget
    · cases h

theorem importsAt_ne_nil {source : List UInt8} {place : Place} {frame : Frame}
    {above : List Frame} (hframes : place.frames = frame :: above)
    (h : Matched source frame.parent frame.earlier place.node) : importsAt source place ≠ [] := by
  obtain ⟨hcommand, ⟨hnamed, hkind, hrole⟩, name, hname, hcommandName, hnameRole, word, hword⟩ := h
  have hpath : (place.node.named && argumentKinds.contains place.node.kind &&
      place.node.hasRole "argument" && frame.parent.isNamed "command") = true := by
    simp [hnamed, hkind, hrole, hcommand]
  rw [importsAt]
  simp only [hframes, if_pos hpath]
  intro hnil
  have hwords := List.flatMap_eq_nil_iff.mp hnil name
    (List.mem_filter.mpr ⟨hname, by simp [hcommandName, hnameRole]⟩)
  have hmem := mem_sourceWordsOf.mpr hword
  rw [List.map_eq_nil_iff.mp hwords] at hmem
  cases hmem

/-! ### The table of statements -/

/-- The entry of a match: the start of its statement, and the match. -/
def importEntry? (captures : Captures) : Option (Nat × Captures) :=
  if isSourceMatch captures then
    (importStatement? captures).map fun statement => (statement.site.span.startByte, captures)
  else none

/-- Of two matches of a statement, the one whose argument starts first. -/
def earliest (entry other : Nat × Captures) : Nat × Captures :=
  if argumentStart other.2 < argumentStart entry.2 then other else entry

theorem fst_earliest (entry other : Nat × Captures) (h : other.1 = entry.1) :
    (earliest entry other).1 = entry.1 := by
  rw [earliest]
  split_ifs
  · exact h
  · rfl

/-- The table of imports keeps the earliest argument of each statement. -/
theorem putImport_eq (key : Nat) (captures : Captures) (table : List (Nat × Captures)) :
    putImport key captures table = Table.put (·.1) earliest (key, captures) table := by
  induction table with
  | nil => rfl
  | cons entry rest ih => rw [putImport, Table.put, ih, earliest]

theorem importTable_eq (found : List Captures) :
    importTable found = Table.ofList (·.1) earliest (found.filterMap importEntry?) := by
  rw [importTable, Table.ofList, List.foldl_filterMap]
  congr 1
  funext table captures
  rw [stepImport, importEntry?]
  split_ifs with hsource
  · cases importStatement? captures with
    | none => rfl
    | some statement => exact putImport_eq _ _ _
  · rfl

theorem earliest_eq : earliest = Table.lighter fun entry => argumentStart entry.2 :=
  rfl

/-- Where arguments come in order, the first match of a statement stays. -/
theorem summary?_earliest {entry : Nat × Captures} {rest : List (Nat × Captures)}
    (h : ∀ other ∈ rest, argumentStart entry.2 ≤ argumentStart other.2) :
    Table.summary? earliest (entry :: rest) = some entry := by
  rw [earliest_eq, Table.summary?_lighter_iff]
  exact ⟨[], rest, rfl, List.forall_mem_nil _, h⟩

/-! ### The matches of a command -/

/-- The entries of the matches at a place, under one start of a statement. -/
def entriesAt (source : List UInt8) (start : Nat) (place : Place) : List (Nat × Captures) :=
  ((importsAt source place).filterMap importEntry?).filter (·.1 = start)

/-- The entries of a statement are found by going through all places. -/
theorem filter_entries (source : List UInt8) (root : Node) (start : Nat) :
    ((Query.run .imports source root).filterMap importEntry?).filter (·.1 = start) =
      (Place.all root).flatMap (entriesAt source start) := by
  rw [Query.run, List.filterMap_flatMap, List.filter_flatMap]
  rfl

/-- A match is entered under the start of its command. -/
theorem MatchOf.importEntry? {source : List UInt8} {command path : Node} {captures : Captures}
    (h : MatchOf source command path captures) :
    importEntry? captures = some (command.span.startByte, captures) := by
  obtain ⟨statement, hstatement, hspan⟩ := Option.map_eq_some_iff.mp h.statement
  rw [Survey.importEntry?, if_pos h.isSource, hstatement, Option.map_some, hspan]

theorem MatchOf.argumentStart {source : List UInt8} {command path : Node} {captures : Captures}
    (h : MatchOf source command path captures) :
    argumentStart captures = path.span.startByte := by
  obtain ⟨argument, hargument, hspan⟩ := Option.map_eq_some_iff.mp h.path
  rw [Survey.argumentStart, hargument]
  exact congrArg (·.1.startByte) hspan

/-- An entry at a place is that of an argument of the command right above. -/
theorem mem_entriesAt {source : List UInt8} {start : Nat} {place : Place}
    {entry : Nat × Captures} (h : entry ∈ entriesAt source start place) :
    ∃ frame above, place.frames = frame :: above ∧ frame.parent.span.startByte = start ∧
      entry.1 = start ∧ Matched source frame.parent frame.earlier place.node ∧
      MatchOf source frame.parent place.node entry.2 := by
  obtain ⟨hentry, hstart⟩ := List.mem_filter.mp h
  obtain ⟨captures, hcaptures, heq⟩ := List.mem_filterMap.mp hentry
  obtain ⟨frame, above, hframes, hmatched, hmatch⟩ := mem_importsAt hcaptures
  rw [hmatch.importEntry?] at heq
  obtain rfl := Option.some.inj heq
  have hstart : frame.parent.span.startByte = start := by simpa using hstart
  exact ⟨frame, above, hframes, hstart, hstart, hmatched, hmatch⟩

theorem entriesAt_ne_nil {source : List UInt8} {place : Place} {frame : Frame}
    {above : List Frame} (hframes : place.frames = frame :: above)
    (h : Matched source frame.parent frame.earlier place.node) :
    entriesAt source frame.parent.span.startByte place ≠ [] := by
  obtain ⟨captures, hcaptures⟩ := List.exists_mem_of_ne_nil _ (importsAt_ne_nil hframes h)
  obtain ⟨other, above', hframes', -, hmatch⟩ := mem_importsAt hcaptures
  obtain ⟨rfl, -⟩ := List.cons.inj (hframes.symm.trans hframes')
  have hmem : (frame.parent.span.startByte, captures) ∈
      entriesAt source frame.parent.span.startByte place := by
    refine List.mem_filter.mpr ⟨?_, by simp⟩
    exact List.mem_filterMap.mpr ⟨captures, hcaptures, hmatch.importEntry?⟩
  exact List.ne_nil_of_mem hmem

/-- The matches of a command are found at its children, in order. -/
theorem entries_of_command {root command : Node} (source : List UInt8)
    (hdistinct : ((root.nodes.filter (·.isNamed "command")).map (·.span.startByte)).Nodup)
    (hcommand : command ∈ root.nodes) (hkind : command.isNamed "command") :
    ∃ found : Place, found.node = command ∧
      (Place.all root).flatMap (entriesAt source command.span.startByte) =
        found.children.flatMap (entriesAt source command.span.startByte) := by
  have hstatement : ∀ place, ∀ entry ∈ entriesAt source command.span.startByte place,
      ∃ frame ∈ place.frames.take 2, frame.parent.isNamed "command" ∧
        frame.parent.span.startByte = command.span.startByte := by
    intro place entry hentry
    obtain ⟨frame, above, hframes, hstart, -, hmatched, -⟩ := mem_entriesAt hentry
    exact ⟨frame, by simp [hframes], hmatched.command, hstart⟩
  obtain ⟨found, hfound, hchildren, heq⟩ :=
    Place.flatMap_all_of_start hdistinct hcommand hkind hstatement
  refine ⟨found, hfound, ?_⟩
  rw [heq]
  refine List.flatMap_congr fun child hchild => ?_
  -- A grandchild is an argument of the child, which is no command that starts there.
  have hnone : child.children.flatMap (entriesAt source command.span.startByte) = [] := by
    refine List.flatMap_eq_nil_iff.mpr fun grandchild hgrandchild => ?_
    refine List.eq_nil_iff_forall_not_mem.mpr fun entry hentry => ?_
    obtain ⟨frame, above, hframes, hstart, -, hmatched, -⟩ := mem_entriesAt hentry
    obtain ⟨earlier, hearlier⟩ := Place.exists_frames_of_mem_children hgrandchild
    obtain ⟨rfl, -⟩ := List.cons.inj (hearlier.symm.trans hframes)
    have htest := hchildren child.node (hfound ▸ Place.node_mem_of_mem_children hchild) child.node
      child.node.self_mem_nodes
    simp only [hmatched.command, Bool.true_and, beq_eq_false_iff_ne] at htest
    exact htest hstart
  rw [hnone, List.append_nil]

/-- If something is given at all, some item is the first to give it. -/
private theorem exists_first_of_flatMap_ne_nil {α β : Type} {f : α → List β} {l : List α}
    (h : l.flatMap f ≠ []) :
    ∃ before a after, l = before ++ a :: after ∧ (∀ x ∈ before, f x = []) ∧ f a ≠ [] := by
  induction l with
  | nil => exact absurd rfl h
  | cons a l ih =>
    by_cases ha : f a = []
    · rw [List.flatMap_cons, ha, List.nil_append] at h
      obtain ⟨before, b, after, rfl, hbefore, hb⟩ := ih h
      exact ⟨a :: before, b, after, rfl, List.forall_mem_cons.mpr ⟨ha, hbefore⟩, hb⟩
    · exact ⟨[], a, l, rfl, List.forall_mem_nil _, ha⟩

/-- The match of a command that stays is that of its reading. -/
theorem exists_reading {source : List UInt8} {found : Place}
    (hordered : found.node.children.Pairwise (fun a b => a.span.startByte ≤ b.span.startByte))
    (hne : found.children.flatMap (entriesAt source found.node.span.startByte) ≠ []) :
    ∃ reading : Reading, reading.command = found.node ∧ reading.Valid source ∧
      ∃ captures, MatchOf source reading.command reading.path captures ∧
        Table.summary? earliest
          (found.children.flatMap (entriesAt source found.node.span.startByte)) =
            some (found.node.span.startByte, captures) := by
  obtain ⟨before, child, after, hsplit, hbefore, hchild⟩ := exists_first_of_flatMap_ne_nil hne
  have hframes := Place.frames_of_children hsplit
  have hnodes : found.node.children =
      before.map (·.node) ++ child.node :: after.map (·.node) := by
    rw [← Place.map_node_children, hsplit, List.map_append, List.map_cons]
  -- Whatever is found at a child starts where the child does.
  have hat : ∀ place ∈ found.children,
      ∀ entry ∈ entriesAt source found.node.span.startByte place,
      argumentStart entry.2 = place.node.span.startByte := by
    intro place _ entry hentry
    obtain ⟨frame, above, -, -, -, -, hmatch⟩ := mem_entriesAt hentry
    exact hmatch.argumentStart
  obtain ⟨entry, rest, hentries⟩ := List.exists_cons_of_ne_nil hchild
  have hentry : entry ∈ entriesAt source found.node.span.startByte child := by simp [hentries]
  obtain ⟨frame, above, hframe, -, hstart, hmatched, hmatch⟩ := mem_entriesAt hentry
  obtain ⟨rfl, -⟩ := List.cons.inj (hframes.symm.trans hframe)
  refine ⟨⟨found.node, before.map (·.node), child.node⟩, rfl, ⟨hmatched, ⟨_, hnodes⟩, ?_⟩,
    entry.2, hmatch, ?_⟩
  · -- A child before the path at which the command is found would have come first.
    intro earlier node later hearlier hnode
    obtain ⟨first, second, rfl, rfl, hsecond⟩ := List.map_eq_append_iff.mp hearlier
    obtain ⟨place, last, rfl, rfl, rfl⟩ := List.map_eq_cons_iff.mp hsecond
    have hplace : found.children = first ++ place :: (last ++ child :: after) := by
      rw [hsplit, List.append_assoc, List.cons_append]
    refine entriesAt_ne_nil (Place.frames_of_children hplace) hnode ?_
    exact hbefore place (by simp)
  · -- All other matches are at the same child or at later ones, which start no earlier.
    have heq : (found.node.span.startByte, entry.2) = entry := Prod.ext hstart.symm rfl
    rw [hsplit, List.flatMap_append, List.flatMap_eq_nil_iff.mpr hbefore, List.nil_append,
      List.flatMap_cons, hentries, List.cons_append, heq]
    refine summary?_earliest fun other hother => ?_
    rw [hat child (by simp [hsplit]) entry hentry]
    rcases List.mem_append.mp hother with hother | hother
    · exact (hat child (by simp [hsplit]) other (by simp [hentries, hother])).ge
    · obtain ⟨place, hplace, hother⟩ := List.mem_flatMap.mp hother
      rw [hat place (by simp [hsplit, hplace]) other hother]
      rw [hnodes, List.pairwise_append] at hordered
      exact (List.pairwise_cons.mp hordered.2.1).1 _ (List.mem_map_of_mem hplace)

/-! ### The imports of a script -/

/-- The entries of all matches. -/
def importEntries (source : List UInt8) (root : Node) : List (Nat × Captures) :=
  (Query.run .imports source root).filterMap importEntry?

/-- The starts of the statements that are matched, in order. -/
def importStarts (source : List UInt8) (root : Node) : List Nat :=
  ((importEntries source root).map (·.1)).eraseDups

section Tree

variable {source : List UInt8} {root : Node}

/-- What is kept for a statement is the reading of its first argument of a listed kind. -/
theorem exists_reading_of_key {start : Nat}
    (hordered : ∀ node ∈ root.nodes,
      node.children.Pairwise (fun a b => a.span.startByte ≤ b.span.startByte))
    (hdistinct : ((root.nodes.filter (·.isNamed "command")).map (·.span.startByte)).Nodup)
    (hstart : start ∈ importStarts source root) :
    ∃ reading : Reading, reading.command ∈ root.nodes ∧ reading.Valid source ∧
      reading.command.span.startByte = start ∧
      ∃ captures, MatchOf source reading.command reading.path captures ∧
        Table.summary? earliest ((importEntries source root).filter (·.1 = start)) =
          some (start, captures) := by
  obtain ⟨entry, hentry, rfl⟩ := List.mem_map.mp (List.mem_eraseDups.mp hstart)
  have hfilter := filter_entries source root entry.1
  have hmem : entry ∈ (Place.all root).flatMap (entriesAt source entry.1) := by
    rw [← hfilter]
    exact List.mem_filter.mpr ⟨hentry, by simp⟩
  obtain ⟨place, hplace, hat⟩ := List.mem_flatMap.mp hmem
  obtain ⟨frame, above, hframes, hstart, -, hmatched, -⟩ := mem_entriesAt hat
  have hcommand : frame.parent ∈ root.nodes :=
    Place.parent_mem_of_mem_all hplace (by simp [hframes])
  obtain ⟨found, hfound, hchildren⟩ := entries_of_command source hdistinct hcommand hmatched.command
  rw [hstart] at hchildren
  rw [← hfound] at hstart hcommand
  rw [importEntries, hfilter, hchildren, ← hstart]
  rw [hchildren, ← hstart] at hmem
  obtain ⟨reading, hreading, hvalid, captures, hmatch, hsummary⟩ :=
    exists_reading (hordered found.node hcommand) (List.ne_nil_of_mem hmem)
  exact ⟨reading, hreading ▸ hcommand, hvalid, congrArg (·.span.startByte) hreading, captures,
    hmatch, hsummary⟩

/-- Every command with an argument of a listed kind has an entry. -/
theorem key_of_reading {reading : Reading}
    (hdistinct : ((root.nodes.filter (·.isNamed "command")).map (·.span.startByte)).Nodup)
    (hcommand : reading.command ∈ root.nodes) (h : reading.Valid source) :
    reading.command.span.startByte ∈ importStarts source root := by
  obtain ⟨found, hfound, hchildren⟩ :=
    entries_of_command source hdistinct hcommand h.matched.command
  obtain ⟨later, hlater⟩ := h.children
  rw [← hfound, ← Place.map_node_children] at hlater
  obtain ⟨before, rest, hsplit, hbefore, hrest⟩ := List.map_eq_append_iff.mp hlater
  obtain ⟨child, after, rfl, hchild, -⟩ := List.map_eq_cons_iff.mp hrest
  have hmatched := h.matched
  rw [← hfound, ← hbefore, ← hchild] at hmatched
  obtain ⟨entry, hentry⟩ := List.exists_mem_of_ne_nil _
    (entriesAt_ne_nil (Place.frames_of_children hsplit) hmatched)
  have hmem : entry ∈ (importEntries source root).filter
      (·.1 = reading.command.span.startByte) := by
    rw [importEntries, filter_entries, hchildren]
    refine List.mem_flatMap.mpr ⟨child, by simp [hsplit], ?_⟩
    rwa [← hfound]
  obtain ⟨hentry, hstart⟩ := List.mem_filter.mp hmem
  exact List.mem_eraseDups.mpr (List.mem_map.mpr ⟨entry, hentry, by simpa using hstart⟩)

end Tree

/-- The record of a match is that of its reading. -/
theorem record_of_match {script : Script} {reading : Reading} {captures : Captures}
    (h : MatchOf script.bytes reading.command reading.path captures) :
    { Import.ofCaptures captures none with
      location := { (Import.ofCaptures captures none).location with file := script.file } } =
        reading.record script := by
  obtain ⟨argument, hargument, htext⟩ := Option.map_eq_some_iff.mp h.path
  obtain ⟨statement, hstatement, hspan⟩ := Option.map_eq_some_iff.mp h.statement
  have hraw : captures.textD "import.from" "" = String.ofList (reading.path.text script.bytes) := by
    rw [Captures.textD, hargument]
    exact congrArg (·.2) htext
  have hfirst : captures.first? ["import", "import.from"] = some statement := hstatement
  rw [Import.ofCaptures, Reading.record, hraw, hfirst]
  simp [hspan, Location.ofSpan?, Location.ofSpan]

/-- **The imports of a script are those of the readings of its tree**, one for each. -/
theorem allImports_eq_readings (script : Script) {root : Node}
    (hordered : ∀ node ∈ root.nodes,
      node.children.Pairwise (fun a b => a.span.startByte ≤ b.span.startByte))
    (hdistinct : ((root.nodes.filter (·.isNamed "command")).map (·.span.startByte)).Nodup) :
    ∃ readings : List Reading,
      allImports Transforms.standard script (fun category => Query.run category script.bytes root) =
        readings.map (Reading.record script) ∧
      (readings.map (·.command.span.startByte)).Nodup ∧
      ∀ reading, reading ∈ readings ↔
        reading.command ∈ root.nodes ∧ reading.Valid script.bytes := by
  have hstarts : ∀ start ∈ importStarts script.bytes root, _ := fun start hstart =>
    exists_reading_of_key hordered hdistinct hstart
  choose! reading hcommand hvalid hstart captures hmatch hsummary using hstarts
  have htable : importTable (Query.run .imports script.bytes root) =
      (importStarts script.bytes root).map fun start => (start, captures start) := by
    rw [importTable_eq, Table.ofList_eq fst_earliest, ← importEntries, ← importStarts,
      List.filterMap_congr hsummary]
    exact congrFun List.filterMap_eq_map' _
  refine ⟨(importStarts script.bytes root).map reading, ?_, ?_, fun other => ⟨fun hmem => ?_, ?_⟩⟩
  · rw [allImports, Transforms.standard]
    simp only [imports, htable, List.map_map]
    exact List.map_congr_left fun start hmem => record_of_match (hmatch start hmem)
  · have hmap : ((importStarts script.bytes root).map reading).map (·.command.span.startByte) =
        importStarts script.bytes root := by
      rw [List.map_map]
      exact (List.map_congr_left hstart).trans (List.map_id' _)
    rw [hmap]
    exact nodup_eraseDups _
  · obtain ⟨start, hkey, rfl⟩ := List.mem_map.mp hmem
    exact ⟨hcommand start hkey, hvalid start hkey⟩
  · rintro ⟨hother, hvalidOther⟩
    have hmem := key_of_reading hdistinct hother hvalidOther
    refine List.mem_map.mpr ⟨other.command.span.startByte, hmem, ?_⟩
    have hsame : (reading other.command.span.startByte).command = other.command :=
      List.inj_on_of_nodup_map hdistinct
        (List.mem_filter.mpr ⟨hcommand _ hmem, (hvalid _ hmem).matched.command⟩)
        (List.mem_filter.mpr ⟨hother, hvalidOther.matched.command⟩) (hstart _ hmem)
    exact (hvalid _ hmem).unique hvalidOther hsame

/-! ### First arguments -/

/-- Whether a node is the first argument of a command, with the children before it. -/
def FirstArgument (command : Node) (before : List Node) (argument : Node) : Prop :=
  (∃ after, command.children = before ++ argument :: after) ∧ argument.hasRole "argument" ∧
    ∀ node ∈ before, ¬node.hasRole "argument"

/-- The first argument is the first child with that role. -/
theorem FirstArgument.find? {command argument : Node} {before : List Node}
    (h : FirstArgument command before argument) :
    command.children.find? (·.hasRole "argument") = some argument := by
  obtain ⟨⟨after, hchildren⟩, hrole, hbefore⟩ := h
  refine List.find?_eq_some_iff_append.mpr ⟨hrole, before, after, hchildren, fun node hnode => ?_⟩
  simpa using hbefore node hnode

/-- A reading is of the first argument exactly if the query looks at that one. -/
theorem firstArgument_iff {source : List UInt8} {reading : Reading} (h : reading.Valid source) :
    FirstArgument reading.command reading.earlier reading.path ↔
      ∃ before argument, FirstArgument reading.command before argument ∧ IsPath argument ∧
        ∃ name ∈ before, NamesSource source name := by
  refine ⟨fun hfirst => ⟨_, _, hfirst, h.matched.path, h.matched.name⟩, ?_⟩
  rintro ⟨before, argument, hfirst, hpath, hname⟩
  -- No argument comes before the first one, so it is a reading itself, and there is only one.
  have hvalid : Reading.Valid source ⟨reading.command, before, argument⟩ := by
    refine ⟨⟨h.matched.command, hpath, hname⟩, hfirst.1, ?_⟩
    intro earlier node later hsplit hmatched
    have hnode : node ∈ before := by
      change before = earlier ++ node :: later at hsplit
      simp [hsplit]
    exact hfirst.2.2 node hnode hmatched.path.2.2
  rw [h.unique hvalid rfl]
  exact hfirst

/-- **Every command that reads another file gives one import**, and the import is of the first
argument of the command exactly if the query looks at that argument. -/
theorem imports_of_first_argument {session : Session} (h : session.Reached Grammar.standard)
    (settings : ExtractionSettings) (script : Script) {root : Node}
    (hordered : ∀ node ∈ root.nodes,
      node.children.Pairwise (fun a b => a.span.startByte ≤ b.span.startByte))
    (hdistinct : ((root.nodes.filter (·.isNamed "command")).map (·.span.startByte)).Nodup) :
    ∃ (facts : Facts) (readings : List Reading),
      (run Grammar.standard settings script root session).result = .ok facts ∧
      facts.imports = keptImports settings (readings.map (Reading.record script)) ∧
      (readings.map (·.command.span.startByte)).Nodup ∧
      (∀ reading, reading ∈ readings ↔
        reading.command ∈ root.nodes ∧ reading.Valid script.bytes) ∧
      ∀ reading ∈ readings,
        (FirstArgument reading.command reading.earlier reading.path ↔
          ∃ before argument, FirstArgument reading.command before argument ∧ IsPath argument ∧
            ∃ name ∈ before, NamesSource script.bytes name) := by
  obtain ⟨readings, himports, hnodup, hmem⟩ := allImports_eq_readings script hordered hdistinct
  refine ⟨_, readings, run_standard h settings script root, ?_, hnodup, hmem, ?_⟩
  · exact congrArg (keptImports settings) himports
  · intro reading hreading
    exact firstArgument_iff ((hmem reading).mp hreading).2

/-! ### An argument that is passed over -/

/-- A script that reads what a command prints, and passes on a word. -/
def generatedScript : Script :=
  Script.ofText "t.sh" "source <(gen) b.sh\n".toList

/-- The tree of the script. -/
def generatedTree : Node :=
  ⟨"program", true, false, none, ⟨0, 19, ⟨0, 0⟩, ⟨1, 0⟩⟩,
    [Node.onFirstLine "command" true none 0 18
      [Node.onFirstLine "command_name" true (some "name") 0 6
          [Node.onFirstLine "word" true none 0 6 []],
        Node.onFirstLine "process_substitution" true (some "argument") 7 13
          [Node.onFirstLine "<(" false none 7 9 [],
            Node.onFirstLine "command" true none 9 12
              [Node.onFirstLine "command_name" true (some "name") 9 12
                [Node.onFirstLine "word" true none 9 12 []]],
            Node.onFirstLine ")" false none 12 13 []],
        Node.onFirstLine "word" true (some "argument") 14 18 []]]⟩

/-- The first argument of the command is passed over, and the second one is reported. -/
theorem imports_of_generated :
    Session.Reached Grammar.standard {} ∧
      (∀ node ∈ generatedTree.nodes,
        node.children.Pairwise (fun a b => a.span.startByte ≤ b.span.startByte)) ∧
      ((generatedTree.nodes.filter (·.isNamed "command")).map (·.span.startByte)).Nodup ∧
      ∃ (facts : Facts) (readings : List Reading),
        (run Grammar.standard {} generatedScript generatedTree {}).result = .ok facts ∧
        facts.imports = keptImports {} (readings.map (Reading.record generatedScript)) ∧
        ∀ reading, reading ∈ readings ↔
          reading.command ∈ generatedTree.nodes ∧ reading.Valid generatedScript.bytes := by
  have hordered : ∀ node ∈ generatedTree.nodes,
      node.children.Pairwise (fun a b => a.span.startByte ≤ b.span.startByte) := by
    decide +kernel
  have hdistinct :
      ((generatedTree.nodes.filter (·.isNamed "command")).map (·.span.startByte)).Nodup := by
    decide +kernel
  obtain ⟨facts, readings, hrun, himports, -, hmem, -⟩ :=
    imports_of_first_argument .fresh {} generatedScript hordered hdistinct
  exact ⟨.fresh, hordered, hdistinct, facts, readings, hrun, himports, hmem⟩

/-- An argument of another kind before the path is passed over: the import is of a word that no
command of the tree has as its first argument. -/
theorem import_of_later_argument :
    ∃ facts : Facts, (run Grammar.standard {} generatedScript generatedTree {}).result = .ok facts ∧
      ∃ record ∈ facts.imports, ∀ command ∈ generatedTree.nodes, ∀ before argument,
        FirstArgument command before argument →
          record.raw ≠ String.ofList (argument.text generatedScript.bytes) := by
  have himports : (allImports Transforms.standard generatedScript fun category =>
      Query.run category generatedScript.bytes generatedTree).map (·.raw) = ["b.sh"] := by
    decide +kernel
  obtain ⟨record, hrecord, hraw⟩ := List.map_eq_singleton_iff.mp himports
  have hfirst : ∀ command ∈ generatedTree.nodes,
      (command.children.find? (·.hasRole "argument")).map
        (fun argument => String.ofList (argument.text generatedScript.bytes)) ≠ some "b.sh" := by
    decide +kernel
  refine ⟨_, run_standard .fresh {} generatedScript generatedTree, record, ?_, ?_⟩
  · refine List.mem_filter.mpr ⟨?_, rfl⟩
    exact hrecord ▸ List.mem_singleton_self record
  · intro command hcommand before argument hargument heq
    refine hfirst command hcommand ?_
    rw [hargument.find?, Option.map_some, ← heq, hraw]

end ShellSurvey.Survey
