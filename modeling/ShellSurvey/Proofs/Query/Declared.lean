import Mathlib.Data.List.TakeWhile
import ShellSurvey.Query.Matches
import ShellSurvey.Survey.Assemble

/-!
# Names in declarations

A declaration holds names, alone or as the targets of assignments. Whether a name is exported, and
what it then stands for, depends on the children of the declaration before it: on its keywords and
on the flags behind them. `Exports` and `ExportsFunction` say so, and `nameKinds` lists what each
match with the name says (`nameKinds_ne_nil_iff`, `function_mem_nameKinds_iff`).
-/

namespace ShellSurvey.Query

variable {source : List UInt8}

/-! ### Keywords and flags -/

/-- The children behind the keyword of that spelling. -/
def Behind (spelling : String) (earlier between : List Node) : Prop :=
  ∃ before keyword, earlier = before ++ keyword :: between ∧ isKeyword spelling keyword

/-- The nodes behind a keyword are those that `Behind` tells. -/
theorem mem_behind {spelling : String} {earlier between : List Node} :
    between ∈ behind (isKeyword spelling) earlier ↔ Behind spelling earlier between := by
  induction earlier with
  | nil => simp [behind, Behind]
  | cons node rest ih =>
    have hcons : Behind spelling (node :: rest) between ↔
        (isKeyword spelling node ∧ between = rest) ∨ Behind spelling rest between := by
      constructor
      · rintro ⟨before, keyword, hsplit, hkeyword⟩
        cases before with
        | nil =>
          obtain ⟨rfl, rfl⟩ := List.cons.inj hsplit
          exact .inl ⟨hkeyword, rfl⟩
        | cons first before =>
          obtain ⟨rfl, rfl⟩ := List.cons.inj hsplit
          exact .inr ⟨before, keyword, rfl, hkeyword⟩
      · rintro (⟨hnode, rfl⟩ | ⟨before, keyword, rfl, hkeyword⟩)
        · exact ⟨[], node, rfl, hnode⟩
        · exact ⟨node :: before, keyword, rfl, hkeyword⟩
    rw [behind, hcons]
    by_cases hnode : isKeyword spelling node
    · rw [if_pos hnode, List.mem_cons, ih]
      simp [hnode]
    · rw [if_neg hnode, ih]
      simp [hnode]

/-- Whether a node is a word that asks for an export: a dash, and an `x` later on its line. -/
def IsExportFlag (source : List UInt8) (node : Node) : Prop :=
  node.isNamed "word" ∧ ∃ a b, node.text source = '-' :: (a ++ 'x' :: b) ∧ '\n' ∉ a

/-- The flag is a dash and later an x, on one line. -/
theorem isExportFlag_iff {text : List Char} :
    isExportFlag text ↔ ∃ a b, text = '-' :: (a ++ 'x' :: b) ∧ '\n' ∉ a := by
  constructor
  · intro h
    unfold isExportFlag at h
    split at h
    · next rest =>
      obtain ⟨a, b, hsplit⟩ := List.append_of_mem (List.contains_iff_mem.mp h)
      have hrest : rest = a ++ 'x' :: (b ++ rest.dropWhile (· != '\n')) := calc
        rest = rest.takeWhile (· != '\n') ++ rest.dropWhile (· != '\n') :=
          List.takeWhile_append_dropWhile.symm
        _ = a ++ 'x' :: (b ++ rest.dropWhile (· != '\n')) := by
          rw [hsplit, List.append_assoc, List.cons_append]
      refine ⟨a, b ++ rest.dropWhile (· != '\n'), congrArg ('-' :: ·) hrest, fun hmem => ?_⟩
      have htake : '\n' ∈ rest.takeWhile (· != '\n') := by simp [hsplit, hmem]
      simpa using List.mem_takeWhile_imp htake
    · cases h
  · rintro ⟨a, b, rfl, ha⟩
    have hline : ∀ c ∈ a ++ ['x'], (c != '\n') = true := by
      intro c hc
      rcases List.mem_append.mp hc with hc | hc
      · simpa using ne_of_mem_of_not_mem hc ha
      · rw [List.mem_singleton.mp hc]
        decide
    rw [isExportFlag, List.append_cons, List.takeWhile_append_of_pos hline]
    simp

theorem mem_flags {test : List Char → Bool} {nodes : List Node} {node : Node} :
    node ∈ flags source test nodes ↔
      node ∈ nodes ∧ node.isNamed "word" ∧ test (node.text source) := by
  simp [flags]

/-- A flag with an f makes the name that of a function. -/
theorem exportKind_eq_function_iff {text : List Char} :
    Survey.exportKind text = .function ↔ ∃ rest, text = '-' :: rest ∧ 'f' ∈ rest := by
  unfold Survey.exportKind
  split
  · next rest =>
    by_cases h : 'f' ∈ rest
    · simp [h]
    · simp [h]
  · next hdash =>
    constructor
    · intro h
      cases h
    · rintro ⟨rest, rfl, -⟩
      exact absurd rfl (hdash rest)

/-! ### Exported names -/

/-- Whether a name behind these children of a declaration is exported. -/
def Exports (source : List UInt8) (earlier : List Node) : Prop :=
  (∃ between, Behind "export" earlier between) ∨
    ∃ between, (Behind "declare" earlier between ∨ Behind "typeset" earlier between) ∧
      ∃ flag ∈ between, IsExportFlag source flag

/-- Whether a name behind these children of a declaration is exported as that of a function. -/
def ExportsFunction (source : List UInt8) (earlier : List Node) (plain : Bool) : Prop :=
  (plain ∧ ∃ between, Behind "export" earlier between ∧
    ∃ flag ∈ between, flag.isNamed "word" ∧ flag.text source = ['-', 'f']) ∨
    ∃ between, (Behind "declare" earlier between ∨ Behind "typeset" earlier between) ∧
      ∃ flag ∈ between, IsExportFlag source flag ∧
        ∃ rest, flag.text source = '-' :: rest ∧ 'f' ∈ rest

/-- What the flags behind a keyword say a name stands for. -/
def flaggedKinds (source : List UInt8) (spelling : String) (test : List Char → Bool)
    (earlier : List Node) : List ExportKind :=
  (behind (isKeyword spelling) earlier).flatMap fun between =>
    (flags source test between).map fun flag => Survey.exportKind (flag.text source)

/-- What the matches with a name say it stands for, in order. -/
def nameKinds (source : List UInt8) (earlier : List Node) (plain : Bool) : List ExportKind :=
  ((behind (isKeyword "export") earlier).map fun _ => ExportKind.variable) ++
    (if plain then flaggedKinds source "export" isFunctionFlag earlier else []) ++
    flaggedKinds source "declare" isExportFlag earlier ++
    flaggedKinds source "typeset" isExportFlag earlier

/-- A kind is given by a flag that stands between the keyword and the name. -/
theorem mem_flaggedKinds {spelling : String} {test : List Char → Bool} {earlier : List Node}
    {kind : ExportKind} :
    kind ∈ flaggedKinds source spelling test earlier ↔
      ∃ between, Behind spelling earlier between ∧ ∃ flag ∈ between,
        flag.isNamed "word" ∧ test (flag.text source) ∧
          Survey.exportKind (flag.text source) = kind := by
  simp only [flaggedKinds, List.mem_flatMap, List.mem_map, mem_behind, mem_flags, and_assoc]

theorem mem_flaggedKinds_isExportFlag {spelling : String} {earlier : List Node}
    {kind : ExportKind} :
    kind ∈ flaggedKinds source spelling isExportFlag earlier ↔
      ∃ between, Behind spelling earlier between ∧ ∃ flag ∈ between,
        IsExportFlag source flag ∧ Survey.exportKind (flag.text source) = kind := by
  simp only [mem_flaggedKinds, isExportFlag_iff, IsExportFlag, and_assoc]

/-- A name has a kind just if it is exported. -/
theorem nameKinds_ne_nil_iff {earlier : List Node} {plain : Bool} :
    nameKinds source earlier plain ≠ [] ↔ Exports source earlier := by
  constructor
  · intro hne
    obtain ⟨kind, hkind⟩ := List.exists_mem_of_ne_nil _ hne
    simp only [nameKinds, List.mem_append] at hkind
    rcases hkind with ((hkind | hkind) | hkind) | hkind
    · obtain ⟨between, hbetween, -⟩ := List.mem_map.mp hkind
      exact .inl ⟨between, mem_behind.mp hbetween⟩
    · split_ifs at hkind with hplain
      · obtain ⟨between, hbetween, -⟩ := mem_flaggedKinds.mp hkind
        exact .inl ⟨between, hbetween⟩
      · cases hkind
    · obtain ⟨between, hbetween, flag, hflag, hexport, -⟩ := mem_flaggedKinds_isExportFlag.mp hkind
      exact .inr ⟨between, .inl hbetween, flag, hflag, hexport⟩
    · obtain ⟨between, hbetween, flag, hflag, hexport, -⟩ := mem_flaggedKinds_isExportFlag.mp hkind
      exact .inr ⟨between, .inr hbetween, flag, hflag, hexport⟩
  · intro hexports
    have hmem : ∃ kind, kind ∈ nameKinds source earlier plain := by
      simp only [nameKinds, List.mem_append]
      rcases hexports with
        ⟨between, hbetween⟩ | ⟨between, hbetween | hbetween, flag, hflag, hexport⟩
      · exact ⟨.variable, .inl (.inl (.inl (List.mem_map.mpr
          ⟨between, mem_behind.mpr hbetween, rfl⟩)))⟩
      · exact ⟨_, .inl (.inr (mem_flaggedKinds_isExportFlag.mpr
          ⟨between, hbetween, flag, hflag, hexport, rfl⟩))⟩
      · exact ⟨_, .inr (mem_flaggedKinds_isExportFlag.mpr
          ⟨between, hbetween, flag, hflag, hexport, rfl⟩)⟩
    obtain ⟨kind, hkind⟩ := hmem
    exact List.ne_nil_of_mem hkind

instance (earlier : List Node) : Decidable (Exports source earlier) :=
  decidable_of_iff (nameKinds source earlier false ≠ []) nameKinds_ne_nil_iff

/-- A name is exported as a function just if a flag says so. -/
theorem function_mem_nameKinds_iff {earlier : List Node} {plain : Bool} :
    .function ∈ nameKinds source earlier plain ↔ ExportsFunction source earlier plain := by
  have hbare : ExportKind.function ∉
      (behind (isKeyword "export") earlier).map fun _ => ExportKind.variable := by
    simp
  have hexport : ExportKind.function ∈
      (if plain then flaggedKinds source "export" isFunctionFlag earlier else []) ↔
      plain ∧ ∃ between, Behind "export" earlier between ∧
        ∃ flag ∈ between, flag.isNamed "word" ∧ flag.text source = ['-', 'f'] := by
    cases plain with
    | false => simp
    | true =>
      rw [if_pos rfl, mem_flaggedKinds]
      constructor
      · rintro ⟨between, hbetween, flag, hflag, hword, htext, -⟩
        exact ⟨rfl, between, hbetween, flag, hflag, hword, beq_iff_eq.mp htext⟩
      · rintro ⟨-, between, hbetween, flag, hflag, hword, htext⟩
        refine ⟨between, hbetween, flag, hflag, hword, beq_iff_eq.mpr htext, ?_⟩
        rw [htext]
        rfl
  have hdeclared : ∀ spelling,
      ExportKind.function ∈ flaggedKinds source spelling isExportFlag earlier ↔
      ∃ between, Behind spelling earlier between ∧ ∃ flag ∈ between, IsExportFlag source flag ∧
        ∃ rest, flag.text source = '-' :: rest ∧ 'f' ∈ rest := by
    intro spelling
    simp only [mem_flaggedKinds_isExportFlag, exportKind_eq_function_iff]
  simp only [nameKinds, List.mem_append, hbare, hexport, hdeclared, false_or, ExportsFunction,
    or_and_right, exists_or, or_assoc]

/-! ### Names of a declaration -/

/-- A name in a declaration. -/
structure DeclaredName where
  /-- The children of the declaration before the name or before its assignment. -/
  earlier : List Node
  /-- The name. -/
  node : Node
  /-- Whether the name stands alone, and is not the target of an assignment. -/
  plain : Bool

/-- Whether a name is in a declaration. -/
def DeclaredName.InStatement (statement : Node) (name : DeclaredName) : Prop :=
  ∃ child later, statement.children = name.earlier ++ child :: later ∧
    name.node.isNamed "variable_name" ∧
    ((name.plain = true ∧ name.node = child) ∨
      (name.plain = false ∧ child.isNamed "variable_assignment" ∧ name.node ∈ child.children ∧
        name.node.hasRole "name"))

/-- The names that a child of a declaration holds. -/
def childNames (earlier : List Node) (child : Node) : List DeclaredName :=
  (if child.isNamed "variable_name" then [⟨earlier, child, true⟩] else []) ++
    if child.isNamed "variable_assignment" then
      (child.children.filter fun node => node.isNamed "variable_name" && node.hasRole "name").map
        fun node => ⟨earlier, node, false⟩
    else []

/-- The names that children of a declaration hold, given the children before. -/
def namesFrom (earlier : List Node) : List Node → List DeclaredName
  | [] => []
  | child :: rest => childNames earlier child ++ namesFrom (earlier ++ [child]) rest

/-- The names of a declaration in order. -/
def namesOf (statement : Node) : List DeclaredName :=
  namesFrom [] statement.children

/-- A child declares a name itself or as the left side of an assignment. -/
theorem mem_childNames {earlier : List Node} {child : Node} {name : DeclaredName} :
    name ∈ childNames earlier child ↔ name.earlier = earlier ∧
      name.node.isNamed "variable_name" ∧
      ((name.plain = true ∧ name.node = child) ∨
        (name.plain = false ∧ child.isNamed "variable_assignment" ∧ name.node ∈ child.children ∧
          name.node.hasRole "name")) := by
  obtain ⟨before, node, plain⟩ := name
  rw [childNames, List.mem_append]
  constructor
  · rintro (h | h)
    · split_ifs at h with hname
      · obtain ⟨rfl, rfl, rfl⟩ := DeclaredName.mk.inj (List.mem_singleton.mp h)
        exact ⟨rfl, hname, .inl ⟨rfl, rfl⟩⟩
      · cases h
    · split_ifs at h with hassignment
      · obtain ⟨other, hother, heq⟩ := List.mem_map.mp h
        obtain ⟨rfl, rfl, rfl⟩ := DeclaredName.mk.inj heq
        rw [List.mem_filter, Bool.and_eq_true] at hother
        exact ⟨rfl, hother.2.1, .inr ⟨rfl, hassignment, hother.1, hother.2.2⟩⟩
      · cases h
  · rintro ⟨hbefore, hname, ⟨hplain, hnode⟩ | ⟨hplain, hassignment, hmem, hrole⟩⟩
    · left
      change before = earlier at hbefore
      change node = child at hnode
      change plain = true at hplain
      subst hbefore hnode hplain
      rw [if_pos hname]
      exact List.mem_singleton_self _
    · right
      change before = earlier at hbefore
      change plain = false at hplain
      subst hbefore hplain
      rw [if_pos hassignment]
      refine List.mem_map.mpr ⟨node, List.mem_filter.mpr ⟨hmem, ?_⟩, rfl⟩
      rw [Bool.and_eq_true]
      exact ⟨hname, hrole⟩

theorem mem_namesFrom {earlier children : List Node} {name : DeclaredName} :
    name ∈ namesFrom earlier children ↔ ∃ before child later,
      children = before ++ child :: later ∧ name ∈ childNames (earlier ++ before) child := by
  induction children generalizing earlier with
  | nil => simp [namesFrom]
  | cons first rest ih =>
    rw [namesFrom, List.mem_append, ih]
    constructor
    · rintro (h | ⟨before, child, later, rfl, h⟩)
      · exact ⟨[], first, rest, rfl, by rwa [List.append_nil]⟩
      · refine ⟨first :: before, child, later, rfl, ?_⟩
        rwa [List.append_assoc, List.singleton_append] at h
    · rintro ⟨before, child, later, hsplit, h⟩
      cases before with
      | nil =>
        obtain ⟨rfl, -⟩ := List.cons.inj hsplit
        rw [List.append_nil] at h
        exact .inl h
      | cons other before =>
        obtain ⟨rfl, rfl⟩ := List.cons.inj hsplit
        refine .inr ⟨before, child, later, rfl, ?_⟩
        rwa [List.append_assoc, List.singleton_append]

/-- The declared names of a statement are those that stand in it. -/
theorem mem_namesOf {statement : Node} {name : DeclaredName} :
    name ∈ namesOf statement ↔ name.InStatement statement := by
  rw [namesOf, mem_namesFrom, DeclaredName.InStatement]
  constructor
  · rintro ⟨before, child, later, hsplit, h⟩
    obtain ⟨hbefore, hname⟩ := mem_childNames.mp h
    refine ⟨child, later, ?_, hname⟩
    rw [hsplit, hbefore, List.nil_append]
  · rintro ⟨child, later, hsplit, hname⟩
    exact ⟨name.earlier, child, later, hsplit, mem_childNames.mpr ⟨rfl, hname⟩⟩

end ShellSurvey.Query
