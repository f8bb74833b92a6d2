import ShellSurvey.Proofs.Survey.ExportEntries
import ShellSurvey.Proofs.Survey.Session
import ShellSurvey.Proofs.Survey.Table

/-!
# One export per name of a declaration

A name of a declaration may be matched many times, and with different flags. The table keeps one
export for each name of a declaration, and an export of a function stays one.

In a tree whose declarations start at different places, the exports are those of the exported
names (`mem_exports_iff`), sorted by their declarations, and within a declaration in the order in
which the names come first (`names_of_statement`).
-/

namespace ShellSurvey.Survey

open Query

/-! ### The table of exports -/

/-- What an export is kept under. -/
structure ExportKey where
  /-- The start of its declaration. -/
  start : Nat
  /-- Its name. -/
  name : String
  deriving DecidableEq

/-- The key of an entry. -/
def exportKey (entry : Nat × Export) : ExportKey :=
  ⟨entry.1, entry.2.name⟩

/-- Of two exports of a name, the later one, unless the first is of a function. -/
def keepFunction (entry other : Nat × Export) : Nat × Export :=
  if entry.2.kind = .function then entry else other

/-- Keeping a function changes neither the statement nor the name. -/
theorem exportKey_keepFunction (entry other : Nat × Export)
    (h : exportKey other = exportKey entry) :
    exportKey (keepFunction entry other) = exportKey entry := by
  rw [keepFunction]
  split_ifs
  · rfl
  · exact h

/-- The table of exports merges entries of one statement and one name. -/
theorem putExport_eq (entry : Nat × Export) (table : List (Nat × Export)) :
    putExport entry.1 entry.2 table = Table.put exportKey keepFunction entry table := by
  induction table with
  | nil => rfl
  | cons other rest ih =>
    have hkey : exportKey other = exportKey entry ↔
        other.1 = entry.1 ∧ other.2.name = entry.2.name := ExportKey.mk.injEq .. ▸ Iff.rfl
    rw [putExport, Table.put, ih, keepFunction]
    by_cases h : other.1 = entry.1 ∧ other.2.name = entry.2.name
    · rw [if_pos h, if_pos (hkey.mpr h)]
    · rw [if_neg h, if_neg (mt hkey.mp h)]

theorem exportTable_eq (file : String) (found : List Captures) :
    exportTable file found =
      Table.ofList exportKey keepFunction (found.filterMap (export? file)) := by
  rw [exportTable, Table.ofList]
  congr 1
  funext table entry
  exact putExport_eq entry table

/-- The export that stays is one of those added, and of a function if one of them is. -/
theorem summary?_keepFunction {entries : List (Nat × Export)} {e : Nat × Export}
    (h : Table.summary? keepFunction entries = some e) :
    e ∈ entries ∧ (e.2.kind = .function ↔ ∃ entry ∈ entries, entry.2.kind = .function) := by
  induction entries using List.reverseRecOn generalizing e with
  | nil => cases h
  | append_singleton entries entry ih =>
    rw [Table.summary?_concat] at h
    obtain rfl := Option.some.inj h
    cases hsummary : Table.summary? keepFunction entries with
    | none =>
      cases entries with
      | nil => simp
      | cons first rest => cases hsummary
    | some other =>
      obtain ⟨hmem, hkind⟩ := ih hsummary
      rw [Option.map_some, Option.getD_some, keepFunction]
      split_ifs with hfunction
      · -- An export of a function is not taken back by a later one.
        refine ⟨List.mem_append_left _ hmem, fun _ => ?_, fun _ => hfunction⟩
        exact ⟨other, List.mem_append_left _ hmem, hfunction⟩
      · -- No function so far, so the last entry alone decides.
        refine ⟨by simp, fun hentry => ⟨entry, by simp, hentry⟩, ?_⟩
        rintro ⟨first, hfirst, hfirstKind⟩
        rcases List.mem_append.mp hfirst with hfirst | hfirst
        · exact absurd (hkind.mpr ⟨first, hfirst, hfirstKind⟩) hfunction
        · rwa [List.mem_singleton.mp hfirst] at hfirstKind

section Statements

variable {source : List UInt8} {file : String} {root : Node}

theorem exportKind_eq_iff {a b : ExportKind} : a = b ↔ (a = .function ↔ b = .function) := by
  cases a <;> cases b <;> simp

/-- The table of the exports of a tree. -/
def treeTable (source : List UInt8) (file : String) (root : Node) : List (Nat × Export) :=
  Table.ofList exportKey keepFunction (exportEntries source file root)

/-- Whether an export is that of a name of a declaration. -/
structure ExportOf (source : List UInt8) (file : String) (statement : Node) (record : Export) :
    Prop where
  /-- The name is not empty. -/
  name_ne : record.name ≠ ""
  /-- The location is that of the declaration. -/
  location : record.location = Location.ofSpan file statement.span
  /-- The declaration exports a name of that text. -/
  exported : ∃ name : DeclaredName, name.InStatement statement ∧
    String.ofList (name.node.text source) = record.name ∧ Exports source name.earlier
  /-- It is of a function if the declaration exports one of that name. -/
  kind : record.kind = .function ↔ ∃ name : DeclaredName, name.InStatement statement ∧
    String.ofList (name.node.text source) = record.name ∧
      ExportsFunction source name.earlier name.plain

variable (hdistinct : ((root.nodes.filter (·.isNamed "declaration_command")).map
  (·.span.startByte)).Nodup)

include hdistinct

/-- The entries under a declaration and a name come from the nodes of that text. -/
theorem mem_filter_key {statement : Node} (hmem : statement ∈ root.nodes)
    (hstatement : statement.isNamed "declaration_command") {text : String}
    {entry : Nat × Export} :
    entry ∈ (exportEntries source file root).filter
        (exportKey · = ⟨statement.span.startByte, text⟩) ↔
      ∃ kind, entry = (statement.span.startByte,
          ⟨text, kind, Location.ofSpan file statement.span⟩) ∧ text ≠ "" ∧
        ∃ name : DeclaredName, name.InStatement statement ∧
          String.ofList (name.node.text source) = text ∧
          kind ∈ nameKinds source name.earlier name.plain := by
  have hentries : entry ∈ (exportEntries source file root).filter
      (exportKey · = ⟨statement.span.startByte, text⟩) ↔
      entry ∈ (namesOf statement).flatMap (nameEntries source file statement) ∧
        entry.2.name = text := by
    rw [← entries_of_statement hdistinct hmem hstatement]
    simp [exportKey, and_assoc]
  rw [hentries, List.mem_flatMap]
  constructor
  · rintro ⟨⟨name, hname, hentry⟩, rfl⟩
    obtain ⟨hnode, kind, hkind, rfl⟩ := mem_nameEntries.mp hentry
    refine ⟨kind, rfl, ?_, name, mem_namesOf.mp hname, rfl, hkind⟩
    intro hempty
    exact hnode (by simpa [exportEntry] using hempty)
  · rintro ⟨kind, rfl, htext, name, hname, rfl, hkind⟩
    refine ⟨⟨name, mem_namesOf.mpr hname, mem_nameEntries.mpr ⟨?_, kind, hkind, rfl⟩⟩, rfl⟩
    intro hnode
    exact htext (by rw [hnode])

/-- Every entry of the table is an export of some declaration. -/
theorem exportOf_of_mem_treeTable {entry : Nat × Export} (h : entry ∈ treeTable source file root) :
    ∃ statement ∈ root.nodes, statement.isNamed "declaration_command" ∧
      entry.1 = statement.span.startByte ∧ ExportOf source file statement entry.2 := by
  obtain ⟨hentry, hkind⟩ := summary?_keepFunction
    ((Table.mem_ofList exportKey_keepFunction).mp h)
  obtain ⟨statement, hmem, hstatement, hstart⟩ :=
    statement_of_mem_entries (List.mem_filter.mp hentry).1
  have hkey : exportKey entry = ⟨statement.span.startByte, entry.2.name⟩ := by
    rw [exportKey, hstart]
  rw [hkey] at hentry hkind
  obtain ⟨kind, heq, htext, name, hname, htextName, hkindName⟩ :=
    (mem_filter_key hdistinct hmem hstatement).mp hentry
  refine ⟨statement, hmem, hstatement, hstart, htext, ?_, ?_, ?_⟩
  · exact congrArg (·.2.location) heq
  · exact ⟨name, hname, htextName, nameKinds_ne_nil_iff.mp (List.ne_nil_of_mem hkindName)⟩
  · rw [hkind]
    constructor
    · rintro ⟨other, hother, hfunction⟩
      obtain ⟨kind', rfl, -, name', hname', htext', hkind'⟩ :=
        (mem_filter_key hdistinct hmem hstatement).mp hother
      change kind' = .function at hfunction
      rw [hfunction] at hkind'
      exact ⟨name', hname', htext', function_mem_nameKinds_iff.mp hkind'⟩
    · rintro ⟨name', hname', htext', hfunction⟩
      refine ⟨_, (mem_filter_key hdistinct hmem hstatement).mpr ⟨.function, rfl, htext, name',
        hname', htext', function_mem_nameKinds_iff.mpr hfunction⟩, rfl⟩

/-- Every export of a declaration is in the table. -/
theorem mem_treeTable_of_exportOf {statement : Node} (hmem : statement ∈ root.nodes)
    (hstatement : statement.isNamed "declaration_command") {record : Export}
    (h : ExportOf source file statement record) :
    (statement.span.startByte, record) ∈ treeTable source file root := by
  obtain ⟨name, hname, htext, hexports⟩ := h.exported
  have hkinds : nameKinds source name.earlier name.plain ≠ [] := nameKinds_ne_nil_iff.mpr hexports
  obtain ⟨kind, hkind⟩ := List.exists_mem_of_ne_nil _ hkinds
  have hentry : _ ∈ (exportEntries source file root).filter
      (exportKey · = ⟨statement.span.startByte, record.name⟩) :=
    (mem_filter_key hdistinct hmem hstatement).mpr
      ⟨kind, rfl, h.name_ne, name, hname, htext, hkind⟩
  -- The table has an export under this key, and the declaration and the name fix the rest of it.
  have hkey : ⟨statement.span.startByte, record.name⟩ ∈
      (treeTable source file root).map exportKey := by
    rw [treeTable, Table.mem_map_key_ofList exportKey_keepFunction]
    exact List.mem_map.mpr ⟨_, (List.mem_filter.mp hentry).1, rfl⟩
  obtain ⟨other, hother, heq⟩ := List.mem_map.mp hkey
  obtain ⟨hstart, hrecord⟩ := ExportKey.mk.inj heq
  obtain ⟨statement', hmem', hstatement', hstart', hexport⟩ :=
    exportOf_of_mem_treeTable hdistinct hother
  have hsame : statement' = statement :=
    List.inj_on_of_nodup_map hdistinct (List.mem_filter.mpr ⟨hmem', hstatement'⟩)
      (List.mem_filter.mpr ⟨hmem, hstatement⟩) (hstart'.symm.trans hstart)
  rw [hsame] at hexport
  have hlocation : other.2.location = record.location := hexport.location.trans h.location.symm
  have hkind : other.2.kind = record.kind := by
    rw [exportKind_eq_iff, hexport.kind, h.kind, hrecord]
  have heq : other = (statement.span.startByte, record) := by
    obtain ⟨start, otherName, otherKind, otherLocation⟩ := other
    obtain ⟨recordName, recordKind, recordLocation⟩ := record
    change start = _ at hstart
    change otherName = recordName at hrecord
    change otherKind = recordKind at hkind
    change otherLocation = recordLocation at hlocation
    rw [hstart, hrecord, hkind, hlocation]
  rw [← heq]
  exact hother

end Statements

/-! ### The order of exports -/

theorem startsBy_trans (a b c : Location) (hab : startsBy a b) (hbc : startsBy b c) :
    startsBy a c := by
  simp only [startsBy, Bool.or_eq_true, Bool.and_eq_true, decide_eq_true_eq, beq_iff_eq] at *
  omega

theorem startsBy_total (a b : Location) : startsBy a b || startsBy b a := by
  simp only [startsBy, Bool.or_eq_true, Bool.and_eq_true, decide_eq_true_eq, beq_iff_eq]
  omega

/-- Sorting keeps the order of exports at the same location. -/
theorem filter_mergeSort_location (records : List Export) (location : Location) :
    (records.mergeSort fun a b => startsBy a.location b.location).filter (·.location = location) =
      records.filter (·.location = location) := by
  have htrans : ∀ a b c : Export, startsBy a.location b.location → startsBy b.location c.location →
      startsBy a.location c.location := fun a b c => startsBy_trans _ _ _
  have htotal : ∀ a b : Export,
      startsBy a.location b.location || startsBy b.location a.location := fun a b =>
    startsBy_total _ _
  have hpairwise : (records.filter (·.location = location)).Pairwise
      (fun a b => startsBy a.location b.location) := by
    refine List.pairwise_of_forall_mem_list fun a ha b hb => ?_
    have hab : a.location = b.location := by
      rw [of_decide_eq_true (List.mem_filter.mp ha).2, of_decide_eq_true (List.mem_filter.mp hb).2]
    rw [hab]
    simpa using startsBy_total b.location b.location
  -- What is sorted already stays in order, so both sides can differ in length only.
  have hsublist := (List.sublist_mergeSort htrans htotal hpairwise List.filter_sublist).filter
    (·.location = location)
  rw [List.filter_filter] at hsublist
  simp only [Bool.and_self] at hsublist
  refine (hsublist.eq_of_length ?_).symm
  exact ((List.mergeSort_perm records _).filter _).length_eq.symm

/-- The texts of the exported names of a declaration, in order, empty ones left out. -/
def exportedNames (source : List UInt8) (statement : Node) : List String :=
  ((namesOf statement).filter fun name =>
    !(name.node.text source).isEmpty && decide (Exports source name.earlier)).map
      fun name => String.ofList (name.node.text source)

section Order

variable {source : List UInt8} {file : String} {root : Node}

/-- The exports are those of the table, sorted by where they start. -/
theorem exports_eq (file : String) (source : List UInt8) (root : Node) :
    exports file (Query.run .exports source root) =
      ((treeTable source file root).map (·.2)).mergeSort
        fun a b => startsBy a.location b.location := by
  rw [exports, exportTable_eq, treeTable, exportEntries]

/-- The names under which the entries of a declaration are kept, in order of their first match. -/
theorem eraseDups_keys (statement : Node) :
    (((namesOf statement).flatMap (nameEntries source file statement)).map exportKey).eraseDups =
      (exportedNames source statement).eraseDups.map (ExportKey.mk statement.span.startByte) := by
  have hinjective : Function.Injective (ExportKey.mk statement.span.startByte) := fun _ _ h =>
    (ExportKey.mk.inj h).2
  -- A name comes once for each of its matches, and not at all if it is empty.
  have hkeys : ((namesOf statement).flatMap (nameEntries source file statement)).map exportKey =
      ((namesOf statement).flatMap fun name =>
        (if name.node.text source = [] then [] else nameKinds source name.earlier name.plain).map
          fun _ => String.ofList (name.node.text source)).map
            (ExportKey.mk statement.span.startByte) := by
    rw [List.map_flatMap, List.map_flatMap]
    refine List.flatMap_congr fun name _ => ?_
    rw [nameEntries]
    split_ifs
    · rfl
    · rw [List.map_map, List.map_map]
      rfl
  rw [hkeys, eraseDups_map hinjective, eraseDups_flatMap_const, exportedNames]
  congr 3
  refine List.filter_congr fun name _ => ?_
  rw [Bool.eq_iff_iff]
  by_cases hnode : name.node.text source = []
  · simp [hnode]
  · have hkinds : nameKinds source name.earlier name.plain ≠ [] ↔ Exports source name.earlier :=
      nameKinds_ne_nil_iff
    simp [hnode, ← hkinds]

/-- The exports come in the order in which they start. -/
theorem pairwise_exports (file : String) (source : List UInt8) (root : Node) :
    (exports file (Query.run .exports source root)).Pairwise
      fun a b => startsBy a.location b.location := by
  rw [exports]
  exact List.pairwise_mergeSort
    (fun a b c : Export => startsBy_trans a.location b.location c.location)
    (fun a b : Export => startsBy_total a.location b.location) _

variable (hdistinct : ((root.nodes.filter (·.isNamed "declaration_command")).map
  (·.span.startByte)).Nodup)

include hdistinct

/-- The exports are those of the declarations of the tree. -/
theorem mem_exports_iff {record : Export} :
    record ∈ exports file (Query.run .exports source root) ↔
      ∃ statement ∈ root.nodes, statement.isNamed "declaration_command" ∧
        ExportOf source file statement record := by
  rw [exports_eq, List.mem_mergeSort, List.mem_map]
  constructor
  · rintro ⟨entry, hentry, rfl⟩
    obtain ⟨statement, hmem, hstatement, -, hexport⟩ := exportOf_of_mem_treeTable hdistinct hentry
    exact ⟨statement, hmem, hstatement, hexport⟩
  · rintro ⟨statement, hmem, hstatement, hexport⟩
    exact ⟨_, mem_treeTable_of_exportOf hdistinct hmem hstatement hexport, rfl⟩

variable
  (hpoints : ((root.nodes.filter (·.isNamed "declaration_command")).map (·.span.start)).Nodup)

include hpoints

/-- An export is located at its own statement and at no other one. -/
theorem location_iff {statement : Node} (hmem : statement ∈ root.nodes)
    (hstatement : statement.isNamed "declaration_command") {entry : Nat × Export}
    (hentry : entry ∈ treeTable source file root) :
    entry.2.location = Location.ofSpan file statement.span ↔
      entry.1 = statement.span.startByte := by
  obtain ⟨other, hother, hkind, hstart, hexport⟩ := exportOf_of_mem_treeTable hdistinct hentry
  have hfilter : statement ∈ root.nodes.filter (·.isNamed "declaration_command") :=
    List.mem_filter.mpr ⟨hmem, hstatement⟩
  have hotherFilter : other ∈ root.nodes.filter (·.isNamed "declaration_command") :=
    List.mem_filter.mpr ⟨hother, hkind⟩
  rw [hexport.location, hstart]
  constructor
  · intro h
    have hpoint : other.span.start = statement.span.start := by
      obtain ⟨-, hline, hcolumn, -⟩ := Location.mk.inj h
      exact congrArg₂ Point.mk (Nat.succ_inj.mp hline) (Nat.succ_inj.mp hcolumn)
    rw [List.inj_on_of_nodup_map hpoints hotherFilter hfilter hpoint]
  · intro h
    rw [List.inj_on_of_nodup_map hdistinct hotherFilter hfilter h]

/-- Within a declaration, names come in the order of their first exported node. -/
theorem names_of_statement {statement : Node} (hmem : statement ∈ root.nodes)
    (hstatement : statement.isNamed "declaration_command") :
    ((exports file (Query.run .exports source root)).filter
        (·.location = Location.ofSpan file statement.span)).map (·.name) =
      (exportedNames source statement).eraseDups := by
  have hfilter : (treeTable source file root).filter
      (fun entry => decide (entry.2.location = Location.ofSpan file statement.span)) =
      (treeTable source file root).filter
        (fun entry => decide ((exportKey entry).start = statement.span.startByte)) := by
    refine List.filter_congr fun entry hentry => ?_
    exact decide_eq_decide.mpr (location_iff hdistinct hpoints hmem hstatement hentry)
  calc ((exports file (Query.run .exports source root)).filter
        (·.location = Location.ofSpan file statement.span)).map (·.name)
      = (((treeTable source file root).map exportKey).filter
          (·.start = statement.span.startByte)).map (·.name) := by
        rw [exports_eq, filter_mergeSort_location, List.filter_map, List.map_map, List.filter_map,
          List.map_map]
        exact congrArg (List.map _) hfilter
    _ = ((((exportEntries source file root).filter (·.1 = statement.span.startByte)).map
          exportKey).eraseDups).map (·.name) := by
        rw [treeTable, Table.map_key_ofList exportKey_keepFunction, ← eraseDups_filter,
          List.filter_map]
        rfl
    _ = (exportedNames source statement).eraseDups := by
        rw [entries_of_statement hdistinct hmem hstatement, eraseDups_keys, List.map_map]
        exact List.map_id _

/-- No two exports have the same location and the same name. -/
theorem nodup_exports :
    ((exports file (Query.run .exports source root)).map
      fun record => (record.location, record.name)).Nodup := by
  have hkeys : ((treeTable source file root).map exportKey).Nodup := by
    rw [treeTable, Table.map_key_ofList exportKey_keepFunction]
    exact nodup_eraseDups _
  rw [exports_eq, ((List.mergeSort_perm _ _).map _).nodup_iff, List.map_map]
  refine List.pairwise_map.mpr ((List.pairwise_map.mp hkeys).imp_of_mem fun ha hb hne heq => ?_)
  obtain ⟨hlocation, hname⟩ := Prod.mk.inj heq
  obtain ⟨statement, hmem, hstatement, hstart, hexport⟩ := exportOf_of_mem_treeTable hdistinct hb
  -- The location tells the declaration, and with the name it tells the key.
  have hstart' := (location_iff hdistinct hpoints hmem hstatement ha).mp
    (hlocation.trans hexport.location)
  exact hne (congrArg₂ ExportKey.mk (hstart'.trans hstart.symm) hname)

end Order

/-- **The exports of a script are those of its declarations**: one for each name that a declaration
exports, sorted by the declarations, and within one in the order in which the names come first. -/
theorem exports_of_declarations {session : Session} (h : session.Reached Grammar.standard)
    (settings : ExtractionSettings) (script : Script) {root : Node}
    (hdistinct : ((root.nodes.filter (·.isNamed "declaration_command")).map
      (·.span.startByte)).Nodup)
    (hpoints : ((root.nodes.filter (·.isNamed "declaration_command")).map (·.span.start)).Nodup) :
    ∃ facts : Facts, (run Grammar.standard settings script root session).result = .ok facts ∧
      (∀ record, record ∈ facts.exports ↔ ∃ statement ∈ root.nodes,
        statement.isNamed "declaration_command" ∧
          ExportOf script.bytes script.file statement record) ∧
      (facts.exports.map fun record => (record.location, record.name)).Nodup ∧
      facts.exports.Pairwise (fun a b => a.location.line < b.location.line ∨
        (a.location.line = b.location.line ∧ a.location.column ≤ b.location.column)) ∧
      ∀ statement ∈ root.nodes, statement.isNamed "declaration_command" →
        (facts.exports.filter (·.location = Location.ofSpan script.file statement.span)).map
          (·.name) = (exportedNames script.bytes statement).eraseDups := by
  refine ⟨_, run_standard h settings script root, fun record => ?_, ?_, ?_, ?_⟩
  · exact mem_exports_iff hdistinct
  · exact nodup_exports hdistinct hpoints
  · refine (pairwise_exports script.file script.bytes root).imp fun hstarts => ?_
    simpa [startsBy] using hstarts
  · intro statement hmem hstatement
    exact names_of_statement hdistinct hpoints hmem hstatement

/-- A script that exports a name twice, once as that of a function. -/
def mixedScript : Script :=
  Script.ofText "t.sh" "export -f g A=1 g\n".toList

/-- The declaration of the script. -/
def mixedDeclaration : Node :=
  Node.onFirstLine "declaration_command" true none 0 17
    [Node.onFirstLine "export" false none 0 6 [], Node.onFirstLine "word" true none 7 9 [],
      Node.onFirstLine "variable_name" true none 10 11 [],
      Node.onFirstLine "variable_assignment" true none 12 15
        [Node.onFirstLine "variable_name" true (some "name") 12 13 [],
          Node.onFirstLine "=" false none 13 14 [],
          Node.onFirstLine "number" true (some "value") 14 15 []],
      Node.onFirstLine "variable_name" true none 16 17 []]

/-- The tree of the script. -/
def mixedTree : Node :=
  ⟨"program", true, false, none, ⟨0, 18, ⟨0, 0⟩, ⟨1, 0⟩⟩, [mixedDeclaration]⟩

/-- Of a name that a statement exports both as a function and as a variable, one export is left. -/
theorem exports_of_mixed :
    Session.Reached Grammar.standard {} ∧
      ((mixedTree.nodes.filter (·.isNamed "declaration_command")).map
        (·.span.startByte)).Nodup ∧
      ((mixedTree.nodes.filter (·.isNamed "declaration_command")).map (·.span.start)).Nodup ∧
      ∃ facts : Facts, (run Grammar.standard {} mixedScript mixedTree {}).result = .ok facts ∧
        (facts.exports.filter (·.location = Location.ofSpan "t.sh" mixedDeclaration.span)).map
          (·.name) = ["g", "A"] := by
  have hdistinct : ((mixedTree.nodes.filter (·.isNamed "declaration_command")).map
      (·.span.startByte)).Nodup := by
    decide +kernel
  have hpoints : ((mixedTree.nodes.filter (·.isNamed "declaration_command")).map
      (·.span.start)).Nodup := by
    decide +kernel
  obtain ⟨facts, hrun, -, -, -, hnames⟩ :=
    exports_of_declarations .fresh {} mixedScript hdistinct hpoints
  have hmem : mixedDeclaration ∈ mixedTree.nodes := by
    rw [Node.nodes_eq]
    simp [mixedTree, Node.self_mem_nodes]
  have hexported : (exportedNames mixedScript.bytes mixedDeclaration).eraseDups = ["g", "A"] := by
    decide +kernel
  refine ⟨.fresh, hdistinct, hpoints, facts, hrun, ?_⟩
  rw [← hexported]
  exact hnames mixedDeclaration hmem (by decide)

end ShellSurvey.Survey
