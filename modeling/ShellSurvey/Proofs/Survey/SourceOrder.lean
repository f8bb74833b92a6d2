import ShellSurvey.Proofs.Survey.Documentation
import ShellSurvey.Proofs.Survey.HereDocuments
import ShellSurvey.Proofs.Tree.Ways

/-!
# Strings and functions in the order of the source

A survey tells every string literal and every function of a tree, each once, and in the order of
the tree. What there is to tell is stated without the walk over the tree that finds it: a literal
is named by the way to its node (`IsLiteral`), a function by the way to its definition and the
children that are its name and its body (`Definition.Parts`). A definition with two names, or with
two bodies, is told once for each pair.

The order is that of the ways to the literals and to the bodies. It is strict, so nothing is told
twice (`enumerates_of_tree`).
-/

namespace ShellSurvey.Survey

/-! ### Enumerations -/

/-- The records are told of the valid items: of each item one, and in the order of the items. -/
def Enumerates {α β : Type} (before : α → α → Prop) (valid : α → Prop) (tells : α → β → Prop)
    (records : List β) : Prop :=
  ∃ items : List α, items.Pairwise before ∧ (∀ item, item ∈ items ↔ valid item) ∧
    List.Forall₂ tells items records

section Enumerations

variable {α β : Type} {before : α → α → Prop} {valid : α → Prop} {tells : α → β → Prop}

/-- Records that tell of their items, group by group, tell of all items. -/
theorem forall₂_flatMap {γ : Type} {l : List γ} {items : γ → List α} {records : γ → List β}
    (h : ∀ x ∈ l, List.Forall₂ tells (items x) (records x)) :
    List.Forall₂ tells (l.flatMap items) (l.flatMap records) := by
  induction l with
  | nil => exact .nil
  | cons x l ih =>
    rw [List.flatMap_cons, List.flatMap_cons]
    exact List.rel_append (h x List.mem_cons_self) (ih fun y hy => h y (List.mem_cons_of_mem _ hy))

/-- What is told place by place is told in order, if the order of the items of different places is
that of the ways to them. -/
theorem enumerates_places {root : Node} (items : Place → List α) {records : Place → List β}
    (hwithin : ∀ place ∈ Place.all root, (items place).Pairwise before)
    (hacross : ∀ a ∈ Place.all root, ∀ b ∈ Place.all root, List.Lex (· < ·) a.way b.way →
      ∀ x ∈ items a, ∀ y ∈ items b, before x y)
    (hvalid : ∀ item, (∃ place ∈ Place.all root, item ∈ items place) ↔ valid item)
    (htells : ∀ place ∈ Place.all root, List.Forall₂ tells (items place) (records place)) :
    Enumerates before valid tells ((Place.all root).flatMap records) := by
  refine ⟨(Place.all root).flatMap items, ?_, fun item => ?_, forall₂_flatMap htells⟩
  · rw [List.pairwise_flatMap]
    exact ⟨hwithin, (Place.pairwise_way_all root).imp_of_mem fun ha hb => hacross _ ha _ hb⟩
  · rw [List.mem_flatMap, hvalid]

end Enumerations

variable {root : Node} {place : Place} {script : Script}

/-! ### Literals -/

/-- Whether there is a string literal at the end of a way: a quoted text or the body of a
here-document, or else a bare word that is redirected as a here-string. -/
def IsLiteral (root : Node) (way : List Nat) : Prop :=
  ∃ node, root.at? way = some node ∧ node.named ∧
    (node.kind ∈ ["raw_string", "string", "ansi_c_string", "heredoc_body"] ∨
      node.kind = "word" ∧ ∃ upper index parent, way = upper ++ [index] ∧
        root.at? upper = some parent ∧ parent.isNamed "herestring_redirect")

/-- What the literal of a node has to be. -/
structure LiteralOf (script : Script) (node : Node) (literal : StringLiteral) : Prop where
  kind : literal.kind = node.kind
  /-- It stands where the node does, but for the column of a here-document. -/
  location : { literal.location with column := node.span.start.column + 1 } =
    Location.ofSpan script.file node.span
  /-- Its value is the text of the node, but for a here-document. -/
  plain : node.kind ≠ "heredoc_body" →
    literal.value.toList = node.text script.bytes ∧
      literal.location = Location.ofSpan script.file node.span

/-- Whether a literal is that of the node at the end of a way. -/
def TellsLiteral (script : Script) (root : Node) (way : List Nat) (literal : StringLiteral) :
    Prop :=
  ∃ node, root.at? way = some node ∧ LiteralOf script node literal

/-- The literals are the nodes of the listed kinds, and words of here-strings. -/
theorem isString_iff (h : place ∈ Place.all root) :
    Query.isString place ↔ IsLiteral root place.way := by
  have hnode := Place.at?_way_of_mem_all h
  have hstring : Query.isString place ↔ place.node.named ∧
      (place.node.kind ∈ Query.stringKinds ∨ place.node.kind = "word" ∧
        ∃ frame ∈ place.frame?, frame.parent.isNamed "herestring_redirect") := by
    rw [Query.isString, Node.isNamed]
    cases place.frame? with
    | none => simp
    | some frame => simp [and_or_left, and_assoc]
  have hparent := Place.exists_frame?_iff h (P := fun parent =>
    parent.isNamed "herestring_redirect")
  rw [hstring, hparent]
  constructor
  · rintro ⟨hnamed, hkind⟩
    exact ⟨_, hnode, hnamed, hkind⟩
  · rintro ⟨node, hat, hnamed, hkind⟩
    obtain rfl := Option.some.inj (hnode.symm.trans hat)
    exact ⟨hnamed, hkind⟩

theorem literalOf_hereDocument (script : Script) (siblings : Option (List String)) (node : Node)
    (hkind : node.kind = hereDocumentKind) :
    LiteralOf script node
      (hereDocument script (Query.capture script.bytes siblings node).site) := by
  refine ⟨rfl, ?_, fun hne => absurd hkind hne⟩
  rw [hereDocument]
  dsimp only
  split_ifs
  · rfl
  · rfl

/-- Every literal is told of at its place. -/
theorem exists_stringAt? (script : Script) (hstring : Query.isString place) :
    ∃ literal, stringAt? script place = some literal ∧ LiteralOf script place.node literal := by
  rw [stringAt?, if_pos hstring]
  by_cases hkind : place.node.kind = hereDocumentKind
  · exact ⟨_, string?_of_get? rfl hkind, literalOf_hereDocument script _ _ hkind⟩
  · refine ⟨_, if_neg hkind, rfl, rfl, fun _ => ⟨?_, rfl⟩⟩
    exact String.toList_ofList

/-- The way to a place, if there is a literal. -/
def literalWays (place : Place) : List (List Nat) :=
  if Query.isString place then [place.way] else []

theorem mem_literalWays {way : List Nat} :
    way ∈ literalWays place ↔ Query.isString place ∧ way = place.way := by
  rw [literalWays]
  split_ifs with hstring
  · simp [hstring]
  · simp [hstring]

/-- The literals are told in the order of the ways to them. -/
theorem enumerates_strings (script : Script) (root : Node) :
    Enumerates (List.Lex (· < ·)) (IsLiteral root) (TellsLiteral script root)
      ((Place.all root).filterMap (stringAt? script)) := by
  rw [List.filterMap_eq_flatMap_toList]
  refine enumerates_places literalWays (fun place _ => ?_) (fun a _ b _ hlex x hx y hy => ?_)
    (fun way => ?_) (fun place hplace => ?_)
  · rw [literalWays]
    split_ifs
    · exact List.pairwise_singleton _ _
    · exact List.Pairwise.nil
  · rw [(mem_literalWays.mp hx).2, (mem_literalWays.mp hy).2]
    exact hlex
  · constructor
    · rintro ⟨place, hplace, hway⟩
      obtain ⟨hstring, rfl⟩ := mem_literalWays.mp hway
      exact (isString_iff hplace).mp hstring
    · rintro ⟨node, hnode, hkind⟩
      obtain ⟨place, hplace, rfl, -⟩ := Place.exists_mem_all_of_at? hnode
      have hstring := (isString_iff hplace).mpr ⟨node, hnode, hkind⟩
      exact ⟨place, hplace, mem_literalWays.mpr ⟨hstring, rfl⟩⟩
  · rw [literalWays]
    split_ifs with hstring
    · obtain ⟨literal, htold, hliteral⟩ := exists_stringAt? script hstring
      rw [htold]
      exact .cons ⟨_, Place.at?_way_of_mem_all hplace, hliteral⟩ .nil
    · rw [stringAt?, if_neg hstring]
      exact .nil

/-! ### Functions -/

/-- Where a function is defined: the way to the definition, and the indices of the children that
are its name and its body. -/
structure Definition where
  /-- The way to the definition. -/
  way : List Nat
  /-- The index of the name. -/
  name : Nat
  /-- The index of the body. -/
  body : Nat
  deriving DecidableEq, Repr

namespace Definition

/-- The nodes that make up the definition of a function in a tree. -/
structure Parts (source : List UInt8) (root : Node) (definition : Definition)
    (whole name body : Node) : Prop where
  whole_at : root.at? definition.way = some whole
  whole_kind : whole.isNamed "function_definition"
  name_at : whole.children[definition.name]? = some name
  name_kind : name.isNamed "word"
  name_role : name.hasRole "name"
  name_text : name.text source ≠ []
  body_at : whole.children[definition.body]? = some body
  body_kind : body.isNamed "compound_statement"
  body_role : body.hasRole "body"
  /-- The body comes after the name. -/
  name_lt_body : definition.name < definition.body

/-- Whether a tree has the definition of a function there. -/
def Valid (source : List UInt8) (root : Node) (definition : Definition) : Prop :=
  ∃ whole name body, definition.Parts source root whole name body

/-- The order of definitions: by the ways to their bodies and, for one body, by their names. -/
def Before (first second : Definition) : Prop :=
  Prod.Lex (List.Lex (· < ·)) (· < ·) (first.way ++ [first.body], first.name)
    (second.way ++ [second.body], second.name)

end Definition

/-- What is told about the function that nodes define. -/
def functionOf (settings : ExtractionSettings) (script : Script) (remarks : List Remark)
    (whole name body : Node) : Function where
  name := String.ofList (name.text script.bytes)
  params := Param.infer (body.text script.bytes)
  body := String.ofList (Script.normalBody (body.text script.bytes))
  isExported := Directive.isExported (name.text script.bytes) script.text
  location := Location.ofSpan script.file whole.span
  doc :=
    if settings.attachDocComments then docAbove remarks (whole.span.start.row + 1) else none

/-- Whether a function is that of a definition, given the comments of the script. -/
def Definition.Tells (settings : ExtractionSettings) (script : Script) (remarks : List Remark)
    (root : Node) (definition : Definition) (function : Function) : Prop :=
  ∃ whole name body, definition.Parts script.bytes root whole name body ∧
    function = functionOf settings script remarks whole name body

/-- Whether a node is the name of a function, given that it is a child of a definition. -/
def isFunctionName (node : Node) : Bool :=
  node.isNamed "word" && node.hasRole "name"

/-- Whether a node is the body of a function, given the node's parent. -/
def isFunctionBody (parent node : Node) : Bool :=
  node.isNamed "compound_statement" && node.hasRole "body" && parent.isNamed "function_definition"

/-- The definitions whose body is at a place. -/
def definitionsAt (source : List UInt8) (place : Place) : List Definition :=
  match place.frames with
  | frame :: above =>
    if isFunctionBody frame.parent place.node then
      ((frame.earlier.zipIdx.filter (fun entry => isFunctionName entry.1)).filter
        (fun entry => !(entry.1.text source).isEmpty)).map
          (fun entry => ⟨Place.way ⟨frame.parent, above⟩, entry.2, frame.earlier.length⟩)
    else []
  | [] => []

/-- A body and a name before it are the parts of a definition. -/
theorem parts_of_mem {source : List UInt8} (h : place ∈ Place.all root) {frame : Frame}
    {above : List Frame} (hframes : place.frames = frame :: above)
    (hbody : isFunctionBody frame.parent place.node) {name : Node} {index : Nat}
    (hentry : (name, index) ∈ frame.earlier.zipIdx.filter fun entry => isFunctionName entry.1)
    (htext : name.text source ≠ []) :
    Definition.Parts source root ⟨Place.way ⟨frame.parent, above⟩, index, frame.earlier.length⟩
      frame.parent name place.node := by
  obtain ⟨hstep, later, hchildren⟩ := Place.step_of_mem_all h hframes
  simp only [isFunctionBody, Bool.and_eq_true] at hbody
  simp only [List.mem_filter, isFunctionName, Bool.and_eq_true,
    List.mem_zipIdx_iff_getElem?] at hentry
  obtain ⟨hname, hkind, hrole⟩ := hentry
  obtain ⟨hlt, -⟩ := List.getElem?_eq_some_iff.mp hname
  refine ⟨hstep, hbody.2, ?_, hkind, hrole, htext, ?_, hbody.1.1, hbody.1.2, hlt⟩
  · rw [hchildren, List.getElem?_append_left hlt, hname]
  · rw [hchildren, List.getElem?_append_right (Nat.le_refl _), Nat.sub_self]
    rfl

/-- The definitions at a place are those whose body is there. -/
theorem mem_definitionsAt_iff {source : List UInt8} (h : place ∈ Place.all root)
    {definition : Definition} :
    definition ∈ definitionsAt source place ↔
      definition.way ++ [definition.body] = place.way ∧
        ∃ whole name, definition.Parts source root whole name place.node := by
  rw [definitionsAt]
  cases hframes : place.frames with
  | nil => simp [Place.way, hframes]
  | cons frame above =>
    have hway := Place.way_of_frames hframes
    obtain ⟨hstep, later, hchildren⟩ := Place.step_of_mem_all h hframes
    constructor
    · intro hmem
      obtain ⟨hbody, hmem⟩ := List.mem_ite_nil_right.mp hmem
      obtain ⟨⟨name, index⟩, hentry, rfl⟩ := List.mem_map.mp hmem
      obtain ⟨hentry, htext⟩ := List.mem_filter.mp hentry
      exact ⟨hway.symm, _, name, parts_of_mem h hframes hbody hentry (by simpa using htext)⟩
    · rintro ⟨hsplit, whole, name, hparts⟩
      obtain ⟨hupper, hindex⟩ := List.append_inj' (hsplit.trans hway) rfl
      have hbody : definition.body = frame.earlier.length := (List.cons.inj hindex).1
      have hwhole := hparts.whole_at
      rw [hupper, hstep] at hwhole
      obtain rfl := Option.some.inj hwhole
      have hname := hparts.name_at
      rw [hchildren, List.getElem?_append_left (hbody ▸ hparts.name_lt_body)] at hname
      refine List.mem_ite_nil_right.mpr ⟨?_, List.mem_map.mpr ⟨(name, definition.name), ?_, ?_⟩⟩
      · simp [isFunctionBody, hparts.whole_kind, hparts.body_kind, hparts.body_role]
      · simp [List.mem_zipIdx_iff_getElem?, isFunctionName, hname, hparts.name_kind,
          hparts.name_role, hparts.name_text]
      · rw [← hupper, ← hbody]

/-- The definitions at a place come in the order of their names. -/
theorem pairwise_definitionsAt (source : List UInt8) (place : Place) :
    (definitionsAt source place).Pairwise Definition.Before := by
  rw [definitionsAt]
  split
  · rename_i frame above hframes
    split_ifs
    · rw [List.pairwise_map]
      refine List.Pairwise.filter _ (List.Pairwise.filter _ ?_)
      have hindices : (frame.earlier.zipIdx.map Prod.snd).Pairwise (· < ·) := by
        rw [List.zipIdx_map_snd]
        exact List.pairwise_lt_range' 1
      refine (List.pairwise_map.mp hindices).imp fun hlt => ?_
      exact Prod.Lex.right _ hlt
    · exact List.Pairwise.nil
  · exact List.Pairwise.nil

/-- The match of the nodes that define a function, given the siblings of the definition. -/
def functionCaptures (source : List UInt8) (siblings : Option (List String))
    (whole name body : Node) : Captures :=
  [("function", Query.capture source siblings whole),
    ("function.name", Query.capture source (Query.childKinds whole) name),
    ("function.params", Query.capture source (Query.childKinds whole) body),
    ("function.body", Query.capture source (Query.childKinds whole) body)]

/-- A body gives a match for each name before it. -/
theorem functionsAt_of_frames {source : List UInt8} {frame : Frame} {above : List Frame}
    (h : place.frames = frame :: above) :
    Query.functionsAt source place =
      if isFunctionBody frame.parent place.node then
        (frame.earlier.zipIdx.filter (fun entry => isFunctionName entry.1)).map fun entry =>
          functionCaptures source (above.head?.bind fun upper => Query.childKinds upper.parent)
            frame.parent entry.1 place.node
      else [] := by
  have hnames : frame.earlier.filter isFunctionName =
      (frame.earlier.zipIdx.filter (fun entry => isFunctionName entry.1)).map Prod.fst := by
    have hfilter :=
      List.filter_map (f := Prod.fst) (p := isFunctionName) (l := frame.earlier.zipIdx)
    rw [List.zipIdx_map_fst] at hfilter
    exact hfilter
  have hmap := congrArg (List.map fun name => functionCaptures source
    (above.head?.bind fun upper => Query.childKinds upper.parent) frame.parent name place.node)
    hnames
  rw [List.map_map] at hmap
  rw [Query.functionsAt, h]
  split_ifs with hbody
  · exact (if_pos hbody).trans hmap
  · exact if_neg hbody

/-- A match gives a function unless the name is empty. -/
theorem function?_functionCaptures (settings : ExtractionSettings) (script : Script)
    (remarks : List Remark) (siblings : Option (List String)) (whole name body : Node) :
    function? Transforms.standard settings script remarks
        (functionCaptures script.bytes siblings whole name body) =
      if (name.text script.bytes).isEmpty then none
      else some (functionOf settings script remarks whole name body) := by
  have hname : (functionCaptures script.bytes siblings whole name body).textD "function.name" "" =
      String.ofList (name.text script.bytes) := rfl
  have hbody : (functionCaptures script.bytes siblings whole name body).textD "function.body" "" =
      String.ofList (body.text script.bytes) := rfl
  have hparams : ∀ text, (functionCaptures script.bytes siblings whole name body).textD
      "function.params" text = String.ofList (body.text script.bytes) := fun _ => rfl
  have hempty : (String.ofList (name.text script.bytes)).isEmpty =
      (name.text script.bytes).isEmpty := by
    rw [Bool.eq_iff_iff]
    simp
  have hfunction : functionAt Transforms.standard settings script remarks
      (functionCaptures script.bytes siblings whole name body)
      (Query.capture script.bytes siblings whole) =
        functionOf settings script remarks whole name body := by
    simp only [functionAt, hname, hbody, hparams, Transforms.standard, String.toList_ofList]
    rfl
  rw [function?, hname, hempty, ← hfunction]
  rfl

/-- The functions of the matches at a place are those of the definitions there. -/
theorem forall₂_functionsAt (settings : ExtractionSettings) (remarks : List Remark)
    (h : place ∈ Place.all root) :
    List.Forall₂ (Definition.Tells settings script remarks root)
      (definitionsAt script.bytes place)
      ((Query.functionsAt script.bytes place).filterMap
        (function? Transforms.standard settings script remarks)) := by
  rw [definitionsAt]
  cases hframes : place.frames with
  | nil =>
    rw [Query.functionsAt, hframes]
    exact .nil
  | cons frame above =>
    rw [functionsAt_of_frames hframes]
    dsimp only
    split_ifs with hbody
    · rw [List.filterMap_map, List.forall₂_map_left_iff]
      refine forall₂_filterMap (fun entry hentry htext => ?_) (fun entry hentry htext => ?_)
      · have htext : entry.1.text script.bytes ≠ [] := by simpa using htext
        refine ⟨_, ?_, _, _, _, parts_of_mem h hframes hbody hentry htext, rfl⟩
        rw [Function.comp_apply, function?_functionCaptures, if_neg (by simpa using htext)]
      · rw [Function.comp_apply, function?_functionCaptures, if_pos (by simpa using htext)]
    · exact .nil

/-- The functions are told in the order of the ways to their bodies. -/
theorem enumerates_functions (settings : ExtractionSettings) (script : Script)
    (remarks : List Remark) (root : Node) :
    Enumerates Definition.Before (Definition.Valid script.bytes root)
      (Definition.Tells settings script remarks root)
      ((Query.run .functions script.bytes root).filterMap
        (function? Transforms.standard settings script remarks)) := by
  rw [Query.run, List.filterMap_flatMap]
  refine enumerates_places (definitionsAt script.bytes) (fun place _ => ?_)
    (fun a ha b hb hlex x hx y hy => ?_) (fun definition => ?_)
    (fun place hplace => forall₂_functionsAt settings remarks hplace)
  · exact pairwise_definitionsAt script.bytes place
  · rw [Definition.Before, ((mem_definitionsAt_iff ha).mp hx).1,
      ((mem_definitionsAt_iff hb).mp hy).1]
    exact Prod.Lex.left _ _ hlex
  · constructor
    · rintro ⟨place, hplace, hmem⟩
      obtain ⟨-, whole, name, hparts⟩ := (mem_definitionsAt_iff hplace).mp hmem
      exact ⟨whole, name, place.node, hparts⟩
    · rintro ⟨whole, name, body, hparts⟩
      have hat : root.at? (definition.way ++ [definition.body]) = some body :=
        Node.at?_concat_eq_some_iff.mpr ⟨whole, hparts.whole_at, hparts.body_at⟩
      obtain ⟨place, hplace, hway, rfl⟩ := Place.exists_mem_all_of_at? hat
      exact ⟨place, hplace, (mem_definitionsAt_iff hplace).mpr ⟨hway.symm, whole, name, hparts⟩⟩

/-- **Strings and functions are all told, each once and in the order of the source.** The string
literals of a tree, however deeply nested, are told one by one in the order of the ways to them.
The functions are told one by one for each definition, a name of it that is not empty and a body
after the name, in the order of the ways to the bodies. -/
theorem enumerates_of_tree {session : Session} (h : session.Reached Grammar.standard)
    {settings : ExtractionSettings} (hstrings : settings.includeStrings = true) (script : Script)
    (root : Node) :
    ∃ facts, (run Grammar.standard settings script root session).result = .ok facts ∧
      Enumerates (List.Lex (· < ·)) (IsLiteral root) (TellsLiteral script root) facts.strings ∧
      Enumerates Definition.Before (Definition.Valid script.bytes root)
        (Definition.Tells settings script
          (remarks script.bytes script.file Script.commentText
            (Query.run .docComments script.bytes root)) root)
        facts.functions := by
  have htold : (assemble Grammar.standard settings script root.tally.faults
      fun category => Query.run category script.bytes root).strings =
        (Place.all root).filterMap (stringAt? script) := by
    rw [← filterMap_string?_run]
    exact if_pos hstrings
  refine ⟨_, run_standard h settings script root, ?_, enumerates_functions settings script _ root⟩
  rw [htold]
  exact enumerates_strings script root

/-- A script with a function in a function, and a literal in a literal. -/
def nestedScript : Script :=
  Script.ofText "t.sh"
    "f() \x7b g() \x7b cat <<<w; \x7d; echo \"$\x7bx:-\"n\"\x7d\"; \x7d\n".toList

/-- The inner function. -/
def nestedInner : Node :=
  Node.onFirstLine "function_definition" true none 6 23
    [Node.onFirstLine "word" true (some "name") 6 7 [], Node.onFirstLine "(" false none 7 8 [],
      Node.onFirstLine ")" false none 8 9 [],
      Node.onFirstLine "compound_statement" true (some "body") 10 23
        [Node.onFirstLine "\x7b" false none 10 11 [],
          Node.onFirstLine "command" true none 12 20
            [Node.onFirstLine "command_name" true (some "name") 12 15
                [Node.onFirstLine "word" true none 12 15 []],
              Node.onFirstLine "herestring_redirect" true (some "redirect") 16 20
                [Node.onFirstLine "<<<" false none 16 19 [],
                  Node.onFirstLine "word" true none 19 20 []]],
          Node.onFirstLine ";" false none 20 21 [], Node.onFirstLine "\x7d" false none 22 23 []]]

/-- The outer literal. -/
def nestedLiteral : Node :=
  Node.onFirstLine "string" true (some "argument") 30 41
    [Node.onFirstLine "\"" false none 30 31 [],
      Node.onFirstLine "expansion" true none 31 40
        [Node.onFirstLine "$\x7b" false none 31 33 [],
          Node.onFirstLine "variable_name" true none 33 34 [],
          Node.onFirstLine ":-" false (some "operator") 34 36 [],
          Node.onFirstLine "string" true none 36 39
            [Node.onFirstLine "\"" false none 36 37 [],
              Node.onFirstLine "string_content" true none 37 38 [],
              Node.onFirstLine "\"" false none 38 39 []],
          Node.onFirstLine "\x7d" false none 39 40 []],
      Node.onFirstLine "\"" false none 40 41 []]

/-- The tree of the script. -/
def nestedTree : Node :=
  ⟨"program", true, false, none, ⟨0, 45, ⟨0, 0⟩, ⟨1, 0⟩⟩,
    [Node.onFirstLine "function_definition" true none 0 44
      [Node.onFirstLine "word" true (some "name") 0 1 [], Node.onFirstLine "(" false none 1 2 [],
        Node.onFirstLine ")" false none 2 3 [],
        Node.onFirstLine "compound_statement" true (some "body") 4 44
          [Node.onFirstLine "\x7b" false none 4 5 [], nestedInner,
            Node.onFirstLine ";" false none 23 24 [],
            Node.onFirstLine "command" true none 25 41
              [Node.onFirstLine "command_name" true (some "name") 25 29
                  [Node.onFirstLine "word" true none 25 29 []],
                nestedLiteral],
            Node.onFirstLine ";" false none 41 42 [],
            Node.onFirstLine "\x7d" false none 43 44 []]]]⟩

/-- A string within a string comes behind the one around it. -/
theorem enumerates_of_nested :
    Session.Reached Grammar.standard {} ∧ ({} : ExtractionSettings).includeStrings = true ∧
      ∃ facts, (run Grammar.standard {} nestedScript nestedTree {}).result = .ok facts ∧
        Enumerates (List.Lex (· < ·)) (IsLiteral nestedTree) (TellsLiteral nestedScript nestedTree)
          facts.strings ∧
        facts.strings.map (·.value) = ["w", "\"$\x7bx:-\"n\"\x7d\"", "\"n\""] ∧
        facts.functions.map (·.name) = ["f", "g"] := by
  have hincluded : ({} : ExtractionSettings).includeStrings = true := rfl
  obtain ⟨facts, hfacts, hstrings, -⟩ := enumerates_of_tree .fresh hincluded nestedScript nestedTree
  have hrun := run_standard .fresh {} nestedScript nestedTree
  obtain rfl := Except.ok.inj (hrun.symm.trans hfacts)
  exact ⟨.fresh, hincluded, _, hrun, hstrings, by decide +kernel, by decide +kernel⟩

end ShellSurvey.Survey
