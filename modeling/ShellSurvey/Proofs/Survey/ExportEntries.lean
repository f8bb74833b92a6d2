import ShellSurvey.Proofs.Query.Declared
import ShellSurvey.Proofs.Tree.Places

/-!
# The matches of a declaration

The query for exports matches a declaration once for each keyword, flag and name in it. Each match
gives an entry: an export, under the start of its declaration. A name with its flags is found at
the place of the name, which is a child of the declaration or the target of an assignment in it.

In a tree whose declarations start at different bytes, the entries of a declaration are those of
its names, one name after the other (`entries_of_statement`).
-/

namespace ShellSurvey.Survey

open Query

/-! ### Entries of a name -/

/-- The entry of a match of a declaration with one of its names. -/
def exportEntry (source : List UInt8) (file : String) (statement node : Node)
    (kind : ExportKind) : Nat × Export :=
  (statement.span.startByte,
    ⟨String.ofList (node.text source), kind, Location.ofSpan file statement.span⟩)

/-- The entries of a name, in order. -/
def nameEntries (source : List UInt8) (file : String) (statement : Node) (name : DeclaredName) :
    List (Nat × Export) :=
  if name.node.text source = [] then []
  else (nameKinds source name.earlier name.plain).map (exportEntry source file statement name.node)

section Matches

variable {source : List UInt8} {file : String}

private theorem export?_bare (statement name : Capture) :
    export? file [("export", statement), ("export.name", name)] =
      if name.text.isEmpty then none
      else some (statement.site.span.startByte,
        ⟨name.text, .variable, Location.ofSpan file statement.site.span⟩) :=
  rfl

/-- A match with a flag exports what the flag says. -/
private theorem export?_flagged (statement flag name : Capture) :
    export? file [("export", statement), ("_flag", flag), ("export.name", name)] =
      if name.text.isEmpty then none
      else some (statement.site.span.startByte,
        ⟨name.text, exportKind flag.text.toList, Location.ofSpan file statement.site.span⟩) :=
  rfl

private theorem isEmpty_text (siblings : Option (List String)) (node : Node) :
    (capture source siblings node).text.isEmpty = (node.text source).isEmpty := by
  rw [Bool.eq_iff_iff]
  simp [capture]

/-- The matches with a flag give an entry for each kind that a flag gives. -/
private theorem filterMap_flagged (spelling : String) (test : List Char → Bool)
    (earlier : List Node) (statement node : Node) (upper siblings : Option (List String))
    (hnode : node.text source ≠ []) :
    ((behind (isKeyword spelling) earlier).flatMap fun between =>
      (flags source test between).map fun flag =>
        ([("export", capture source upper statement),
          ("_flag", capture source (childKinds statement) flag),
          ("export.name", capture source siblings node)] : Captures)).filterMap (export? file) =
      (flaggedKinds source spelling test earlier).map (exportEntry source file statement node) := by
  have hempty : ¬(capture source siblings node).text.isEmpty := by
    rw [isEmpty_text, List.isEmpty_iff]
    exact hnode
  rw [flaggedKinds, List.filterMap_flatMap, List.map_flatMap]
  refine List.flatMap_congr fun between _ => ?_
  rw [List.filterMap_map, List.map_map, ← List.filterMap_eq_map]
  refine List.filterMap_congr fun flag _ => ?_
  rw [Function.comp_apply, export?_flagged, if_neg hempty]
  simp [exportEntry, capture]

/-- The matches without a flag give an entry for each keyword. -/
private theorem filterMap_bare (spelling : String) (earlier : List Node) (statement node : Node)
    (upper siblings : Option (List String)) (hnode : node.text source ≠ []) :
    ((behind (isKeyword spelling) earlier).map fun _ =>
      ([("export", capture source upper statement),
        ("export.name", capture source siblings node)] : Captures)).filterMap (export? file) =
      ((behind (isKeyword spelling) earlier).map fun _ => ExportKind.variable).map
        (exportEntry source file statement node) := by
  have hempty : ¬(capture source siblings node).text.isEmpty := by
    rw [isEmpty_text, List.isEmpty_iff]
    exact hnode
  rw [List.filterMap_map, List.map_map, ← List.filterMap_eq_map]
  refine List.filterMap_congr fun between _ => ?_
  rw [Function.comp_apply, export?_bare, if_neg hempty]
  rfl

private theorem export?_of_empty {captures : Captures} {name : Capture}
    (hname : captures.get? "export.name" = some name) (hempty : name.text.isEmpty) :
    export? file captures = none := by
  rw [export?, hname]
  simp only [hempty, if_true]

/-- What the matches with a name give: nothing for an empty name, else an entry for each. -/
theorem filterMap_matches (declared : Declared) (siblings : Option (List String)) (node : Node) :
    (declared.matches source (capture source siblings node)).filterMap (export? file) =
      nameEntries source file declared.statement ⟨declared.earlier, node, declared.plain⟩ := by
  rw [nameEntries]
  by_cases hnode : node.text source = []
  · rw [if_pos hnode, List.filterMap_eq_nil_iff]
    intro captures hcaptures
    have hname : captures.get? "export.name" = some (capture source siblings node) := by
      simp only [Declared.matches, List.mem_append, List.mem_flatMap, List.mem_map] at hcaptures
      rcases hcaptures with ((⟨_, _, rfl⟩ | hcaptures) | ⟨_, _, _, _, rfl⟩) | ⟨_, _, _, _, rfl⟩
      · rfl
      · split_ifs at hcaptures
        · obtain ⟨_, _, hcaptures⟩ := List.mem_flatMap.mp hcaptures
          obtain ⟨_, _, rfl⟩ := List.mem_map.mp hcaptures
          rfl
        · cases hcaptures
      · rfl
      · rfl
    refine export?_of_empty hname ?_
    rw [isEmpty_text, hnode]
    rfl
  · rw [if_neg hnode, Declared.matches, nameKinds]
    simp only [List.filterMap_append, List.map_append, filterMap_bare _ _ _ _ _ _ hnode,
      filterMap_flagged _ _ _ _ _ _ _ hnode]
    congr 3
    cases declared.plain with
    | false => rfl
    | true => exact filterMap_flagged _ _ _ _ _ _ _ hnode

end Matches

/-! ### Entries at a place -/

section Places

variable {source : List UInt8} {file : String}

/-- The entries of the matches at a place, under one start of a declaration. -/
def exportEntriesAt (source : List UInt8) (file : String) (start : Nat) (place : Place) :
    List (Nat × Export) :=
  ((exportsAt source place).filterMap (export? file)).filter (·.1 = start)

/-- The entries at a place are those of one name in one declaration, or in two if the name is in an
assignment of one of them. -/
theorem filterMap_exportsAt (place : Place) :
    (exportsAt source place).filterMap (export? file) =
      ((assignedDeclared? place).toList ++ (plainDeclared? place).toList).flatMap fun declared =>
        nameEntries source file declared.statement
          ⟨declared.earlier, place.node, declared.plain⟩ := by
  rw [exportsAt, List.filterMap_flatMap]
  exact List.flatMap_congr fun declared _ => filterMap_matches declared _ _

/-- A name has an entry for each of its kinds, unless it is empty. -/
theorem mem_nameEntries {statement : Node} {name : DeclaredName} {entry : Nat × Export} :
    entry ∈ nameEntries source file statement name ↔ name.node.text source ≠ [] ∧
      ∃ kind ∈ nameKinds source name.earlier name.plain,
        exportEntry source file statement name.node kind = entry := by
  rw [nameEntries]
  by_cases hnode : name.node.text source = []
  · simp [hnode]
  · simp [hnode]

theorem fst_of_mem_nameEntries {statement : Node} {name : DeclaredName} {entry : Nat × Export}
    (h : entry ∈ nameEntries source file statement name) :
    entry.1 = statement.span.startByte := by
  obtain ⟨-, kind, -, rfl⟩ := mem_nameEntries.mp h
  rfl

/-- The entries of a name start where its statement does. -/
theorem filter_nameEntries (statement : Node) (name : DeclaredName) (start : Nat) :
    (nameEntries source file statement name).filter (·.1 = start) =
      if statement.span.startByte = start then nameEntries source file statement name else [] := by
  split_ifs with hstart
  · refine List.filter_eq_self.mpr fun entry hentry => ?_
    simp [fst_of_mem_nameEntries hentry, hstart]
  · refine List.filter_eq_nil_iff.mpr fun entry hentry => ?_
    simp [fst_of_mem_nameEntries hentry, hstart]

/-- The entries at a place are those of the names that are declared there. -/
theorem exportEntriesAt_eq (start : Nat) (place : Place) :
    exportEntriesAt source file start place =
      ((assignedDeclared? place).toList ++ (plainDeclared? place).toList).flatMap fun declared =>
        if declared.statement.span.startByte = start then
          nameEntries source file declared.statement ⟨declared.earlier, place.node, declared.plain⟩
        else [] := by
  rw [exportEntriesAt, filterMap_exportsAt, List.filter_flatMap]
  exact List.flatMap_congr fun declared _ => filter_nameEntries _ _ _

/-- An assigned name is declared by a statement two nodes above. -/
theorem statement_of_assigned {place : Place} {declared : Declared}
    (h : assignedDeclared? place = some declared) :
    declared.statement.isNamed "declaration_command" ∧
      ∃ frame ∈ place.frames.take 2, frame.parent = declared.statement := by
  unfold assignedDeclared? at h
  split at h
  · next frame upper above hframes =>
    split_ifs at h with hname
    · obtain rfl := Option.some.inj h
      simp only [Bool.and_eq_true] at hname
      exact ⟨hname.2, upper, by simp [hframes], rfl⟩
  · cases h

/-- A plain name is declared by the statement right above. -/
theorem statement_of_plain {place : Place} {declared : Declared}
    (h : plainDeclared? place = some declared) :
    declared.statement.isNamed "declaration_command" ∧
      ∃ frame ∈ place.frames.take 2, frame.parent = declared.statement := by
  unfold plainDeclared? at h
  split at h
  · next frame above hframes =>
    split_ifs at h with hname
    · obtain rfl := Option.some.inj h
      simp only [Bool.and_eq_true] at hname
      exact ⟨hname.2, frame, by simp [hframes], rfl⟩
  · cases h

/-- An entry belongs to a declaration at most two nodes above its place. -/
theorem statement_of_mem {start : Nat} {place : Place} {entry : Nat × Export}
    (h : entry ∈ exportEntriesAt source file start place) :
    ∃ frame ∈ place.frames.take 2, frame.parent.isNamed "declaration_command" ∧
      frame.parent.span.startByte = start := by
  rw [exportEntriesAt_eq] at h
  obtain ⟨declared, hdeclared, hentry⟩ := List.mem_flatMap.mp h
  split_ifs at hentry with hstart
  · rw [List.mem_append, Option.mem_toList, Option.mem_toList] at hdeclared
    obtain ⟨hkind, frame, hframe, hparent⟩ :=
      hdeclared.elim statement_of_assigned statement_of_plain
    exact ⟨frame, hframe, hparent ▸ hkind, hparent ▸ hstart⟩
  · cases hentry

/-- The entries at a child of a declaration: those of a name that stands alone. -/
theorem exportEntriesAt_child {statement node : Node} {earlier : List Node} {above : List Frame}
    (hstatement : statement.isNamed "declaration_command") :
    exportEntriesAt source file statement.span.startByte
        ⟨node, ⟨statement, earlier⟩ :: above⟩ =
      if node.isNamed "variable_name" then nameEntries source file statement ⟨earlier, node, true⟩
      else [] := by
  have hassigned : assignedDeclared? ⟨node, ⟨statement, earlier⟩ :: above⟩ = none := by
    have hkind : statement.isNamed "variable_assignment" = false :=
      Node.isNamed_eq_false hstatement (by decide)
    cases above with
    | nil => rfl
    | cons upper above => simp [assignedDeclared?, hkind]
  rw [exportEntriesAt_eq, hassigned, plainDeclared?]
  by_cases hname : node.isNamed "variable_name"
  · simp [hname, hstatement]
  · simp [hname]

/-- The entries at a child of an assignment in a declaration: those of its target. -/
theorem exportEntriesAt_grandchild {statement child node : Node} {earlier nearer : List Node}
    {above : List Frame} (hstatement : statement.isNamed "declaration_command")
    (hchild : (child.isNamed "declaration_command" &&
      child.span.startByte == statement.span.startByte) = false) :
    exportEntriesAt source file statement.span.startByte
        ⟨node, ⟨child, nearer⟩ :: ⟨statement, earlier⟩ :: above⟩ =
      if child.isNamed "variable_assignment" then
        if node.isNamed "variable_name" && node.hasRole "name" then
          nameEntries source file statement ⟨earlier, node, false⟩
        else []
      else [] := by
  -- A name right below the child would be one of another declaration.
  have hplain : ∀ declared ∈ (plainDeclared?
      ⟨node, ⟨child, nearer⟩ :: ⟨statement, earlier⟩ :: above⟩).toList,
      declared.statement.span.startByte ≠ statement.span.startByte := by
    intro declared hdeclared
    rw [Option.mem_toList, plainDeclared?] at hdeclared
    simp only at hdeclared
    split_ifs at hdeclared with hname
    obtain rfl := Option.some.inj hdeclared
    rw [Bool.and_eq_true] at hname
    rw [hname.2, Bool.true_and] at hchild
    exact beq_eq_false_iff_ne.mp hchild
  rw [exportEntriesAt_eq, List.flatMap_append]
  refine (congrArg₂ (· ++ ·) ?_ (List.flatMap_eq_nil_iff.mpr fun declared hdeclared =>
    if_neg (hplain declared hdeclared))).trans (List.append_nil _)
  rw [assignedDeclared?]
  by_cases hassignment : child.isNamed "variable_assignment"
  · by_cases hname : node.isNamed "variable_name" && node.hasRole "name"
    · simp [hassignment, hname, hstatement]
    · simp [hassignment, hname]
  · simp [hassignment]

private theorem flatMap_filter {α β : Type} (p : α → Bool) (f : α → List β) (l : List α) :
    (l.filter p).flatMap f = l.flatMap fun x => if p x then f x else [] := by
  induction l with
  | nil => rfl
  | cons x l ih =>
    rw [List.filter_cons, List.flatMap_cons, ← ih]
    split_ifs
    · rw [List.flatMap_cons]
    · rw [List.nil_append]

/-- The entries at the children of a declaration and below them, child by child. -/
theorem flatMap_childrenFrom {statement : Node} {frames : List Frame} {earlier nodes : List Node}
    (hstatement : statement.isNamed "declaration_command")
    (hnodes : ∀ child ∈ nodes, (child.isNamed "declaration_command" &&
      child.span.startByte == statement.span.startByte) = false) :
    ((Place.childrenFrom statement frames earlier nodes).flatMap fun child =>
      exportEntriesAt source file statement.span.startByte child ++
        child.children.flatMap (exportEntriesAt source file statement.span.startByte)) =
      (namesFrom earlier nodes).flatMap (nameEntries source file statement) := by
  induction nodes generalizing earlier with
  | nil => rfl
  | cons child rest ih =>
    rw [Place.childrenFrom, namesFrom, List.flatMap_cons, List.flatMap_append,
      ih fun other hother => hnodes other (List.mem_cons_of_mem _ hother)]
    congr 1
    -- Below an assignment its target is found, below any other child nothing.
    have hgrandchildren : ∀ place ∈ Place.children ⟨child, ⟨statement, earlier⟩ :: frames⟩,
        exportEntriesAt source file statement.span.startByte place =
          if child.isNamed "variable_assignment" then
            if place.node.isNamed "variable_name" && place.node.hasRole "name" then
              nameEntries source file statement ⟨earlier, place.node, false⟩
            else []
          else [] := by
      rintro ⟨node, above⟩ hplace
      obtain ⟨nearer, hframes⟩ := Place.exists_frames_of_mem_children hplace
      change above = ⟨child, nearer⟩ :: ⟨statement, earlier⟩ :: frames at hframes
      subst hframes
      exact exportEntriesAt_grandchild hstatement (hnodes child List.mem_cons_self)
    have hmap := Place.map_node_children ⟨child, ⟨statement, earlier⟩ :: frames⟩
    rw [exportEntriesAt_child hstatement, childNames, List.flatMap_append,
      List.flatMap_congr hgrandchildren]
    congr 1
    · split_ifs
      · rw [List.flatMap_singleton]
      · rfl
    · split_ifs
      · rw [List.flatMap_map, ← hmap, flatMap_filter, List.flatMap_map]
      · exact List.flatMap_eq_nil_iff.mpr fun _ _ => rfl

/-- All entries, in order. -/
def exportEntries (source : List UInt8) (file : String) (root : Node) : List (Nat × Export) :=
  (Query.run .exports source root).filterMap (export? file)

/-- The entries of a statement are found by going through all places. -/
theorem filter_exportEntries (root : Node) (start : Nat) :
    (exportEntries source file root).filter (·.1 = start) =
      (Place.all root).flatMap (exportEntriesAt source file start) := by
  rw [exportEntries, Query.run, List.filterMap_flatMap, List.filter_flatMap]
  rfl

/-- **The entries of a declaration are those of its names**, in order. -/
theorem entries_of_statement {root statement : Node}
    (hdistinct : ((root.nodes.filter (·.isNamed "declaration_command")).map
      (·.span.startByte)).Nodup)
    (hmem : statement ∈ root.nodes) (hstatement : statement.isNamed "declaration_command") :
    (exportEntries source file root).filter (·.1 = statement.span.startByte) =
      (namesOf statement).flatMap (nameEntries source file statement) := by
  have hentries : ∀ place,
      ∀ entry ∈ exportEntriesAt source file statement.span.startByte place, _ :=
    fun _ _ => statement_of_mem
  obtain ⟨⟨node, frames⟩, hfound, hchildren, heq⟩ :=
    Place.flatMap_all_of_start hdistinct hmem hstatement hentries
  change node = statement at hfound
  subst hfound
  rw [filter_exportEntries, heq, namesOf]
  exact flatMap_childrenFrom hstatement fun child hchild =>
    hchildren child hchild child child.self_mem_nodes

/-- Every entry belongs to some declaration of the tree. -/
theorem statement_of_mem_entries {root : Node} {entry : Nat × Export}
    (h : entry ∈ exportEntries source file root) :
    ∃ statement ∈ root.nodes, statement.isNamed "declaration_command" ∧
      entry.1 = statement.span.startByte := by
  have hmem : entry ∈ (Place.all root).flatMap (exportEntriesAt source file entry.1) := by
    rw [← filter_exportEntries]
    exact List.mem_filter.mpr ⟨h, by simp⟩
  obtain ⟨place, hplace, hentry⟩ := List.mem_flatMap.mp hmem
  obtain ⟨frame, hframe, hkind, hstart⟩ := statement_of_mem hentry
  exact ⟨frame.parent, Place.parent_mem_of_mem_all hplace (List.mem_of_mem_take hframe), hkind,
    hstart.symm⟩

end Places

end ShellSurvey.Survey
