import ShellSurvey.Proofs.Survey.Session
import ShellSurvey.Proofs.Tree.Places

/-!
# The comments of a tree

A survey tells the comments of a tree one by one, in the order of the nodes, and leaves out those
that it takes for the interpreter line: comments that open with `#!` on the first row
(`map_comment_remarks`).

The interpreter line of a script starts with its first byte, but the survey looks at the row only.
So a comment that opens with `#!` behind something else on the first row is lost, and this is the
only way in which a comment gets lost (`docComments_of_tree`).
-/

namespace ShellSurvey.Survey

/-- What is told about the comment at a node. -/
def commentAt (script : Script) (node : Node) : DocComment where
  text := String.ofList (Script.commentText (node.text script.bytes))
  location := Location.ofSpan script.file node.span

/-- Whether the text of a node opens as an interpreter line does. -/
def opensInterpreter (source : List UInt8) (node : Node) : Bool :=
  ['#', '!'].isPrefixOf (node.text source)

/-- The comments of a tree but for those to be left out, in the order of the nodes. -/
def commentsBut (skip : Node → Bool) (script : Script) (root : Node) : List DocComment :=
  (root.nodes.filter fun node => node.isNamed "comment" && !skip node).map (commentAt script)

/-! ### What is told -/

/-- Only the first row of a script can name an interpreter. -/
theorem isInterpreterLine_iff {point : Point} {text : List Char} :
    isInterpreterLine point text ↔ point.row = 0 ∧ ['#', '!'] <+: text := by
  have hopens : text.take 2 = ['#', '!'] ↔ ['#', '!'] <+: text := by
    rw [List.prefix_iff_eq_take, eq_comm]
    rfl
  rw [isInterpreterLine, Bool.and_eq_true, beq_iff_eq, beq_iff_eq, hopens]

theorem isInterpreterLine_eq (source : List UInt8) (node : Node) :
    isInterpreterLine node.span.start (node.text source) =
      (opensInterpreter source node && node.span.start.row == 0) := by
  rw [Bool.eq_iff_iff, isInterpreterLine_iff, opensInterpreter, Bool.and_eq_true,
    List.isPrefixOf_iff_prefix, beq_iff_eq]
  exact and_comm

/-- Every comment but the interpreter line gives a remark. -/
theorem remark?_of_get? {bytes : List UInt8} {file : String} {read : List Char → List Char}
    {captures : Captures} {comment : Capture} (h : captures.get? "doc.content" = some comment) :
    remark? bytes file read captures =
      if isInterpreterLine comment.site.span.start comment.text.toList then none
      else some (remarkOf file read comment (standsAlone bytes comment.site.span.start)) := by
  rw [remark?, h]

theorem remark?_capture (script : Script) (siblings : Option (List String)) (node : Node) :
    remark? script.bytes script.file Script.commentText
        [("doc.content", Query.capture script.bytes siblings node)] =
      if opensInterpreter script.bytes node && node.span.start.row == 0 then none
      else some ⟨commentAt script node, standsAlone script.bytes node.span.start⟩ := by
  have hget : Captures.get? [("doc.content", Query.capture script.bytes siblings node)]
      "doc.content" = some (Query.capture script.bytes siblings node) := rfl
  have htext : (Query.capture script.bytes siblings node).text.toList = node.text script.bytes :=
    String.toList_ofList
  rw [remark?_of_get? hget, ← isInterpreterLine_eq, remarkOf, htext]
  rfl

/-- What is told about the comment at a place depends on its node only. -/
theorem map_comment_matchesAt (script : Script) (place : Place) :
    ((Query.matchesAt .docComments script.bytes place).filterMap
        (remark? script.bytes script.file Script.commentText)).map (·.comment) =
      ([place.node].filter fun node => node.isNamed "comment" &&
        !(opensInterpreter script.bytes node && node.span.start.row == 0)).map
          (commentAt script) := by
  have hremark := remark?_capture script place.siblingKinds place.node
  rw [Query.matchesAt, Query.docCommentsAt]
  by_cases hcomment : place.node.isNamed "comment"
  · rw [if_pos hcomment]
    by_cases hskip : opensInterpreter script.bytes place.node && place.node.span.start.row == 0
    · rw [if_pos hskip] at hremark
      rw [List.filterMap_cons_none hremark, List.filter_cons_of_neg (by simp [hskip])]
      rfl
    · rw [if_neg hskip] at hremark
      rw [List.filterMap_cons_some hremark, List.filter_cons_of_pos (by simp [hcomment, hskip])]
      rfl
  · rw [if_neg hcomment, List.filter_cons_of_neg (by simp [hcomment])]
    rfl

/-- The comments that are told are those of the nodes, in their order. -/
theorem map_comment_remarks (script : Script) (root : Node) :
    (remarks script.bytes script.file Script.commentText
        (Query.run .docComments script.bytes root)).map (·.comment) =
      commentsBut (fun node => opensInterpreter script.bytes node && node.span.start.row == 0)
        script root := by
  rw [remarks, Query.run, List.filterMap_flatMap, List.map_flatMap,
    List.flatMap_congr fun place _ => map_comment_matchesAt script place, ← List.map_flatMap,
    ← List.filter_flatMap, ← List.map_eq_flatMap, Place.map_node_all, commentsBut]

/-! ### What is lost -/

/-- Two selections of a list are told apart by what is made of them, as far as one selection takes
what the other one takes. -/
private theorem agree_of_map_filter_eq {α β : Type} {p q : α → Bool} {f : α → β} {t : β → Bool}
    {l : List α} (h : (l.filter p).map f = (l.filter q).map f)
    (himp : ∀ x, t (f x) → p x → q x) : ∀ x ∈ l, t (f x) → p x = q x := by
  have hsublist : (l.filter fun x => t (f x) && p x).Sublist
      (l.filter fun x => t (f x) && q x) := by
    refine List.monotone_filter_right l fun x hx => ?_
    rw [Bool.and_eq_true] at hx ⊢
    exact ⟨hx.1, himp x hx.1 hx.2⟩
  have hlength : ∀ r : α → Bool, (l.filter fun x => t (f x) && r x).length =
      (((l.filter r).map f).filter t).length := by
    intro r
    rw [List.filter_map, List.length_map, List.filter_filter]
    rfl
  -- As many of each selection pass the test, so the smaller selection is all of the larger one.
  have heq := hsublist.eq_of_length (by rw [hlength, hlength, h])
  intro x hx ht
  have hmem : ∀ r : α → Bool, r x ↔ x ∈ l.filter fun x => t (f x) && r x := by
    intro r
    simp [hx, ht]
  rw [Bool.eq_iff_iff, hmem p, hmem q, heq]

/-- The comments but for the interpreter line are told exactly if a comment that opens as one is on
the first row just where it starts with the first byte. -/
theorem commentsBut_eq_iff (script : Script) (root : Node) :
    commentsBut (fun node => opensInterpreter script.bytes node && node.span.start.row == 0)
        script root =
      commentsBut (fun node => opensInterpreter script.bytes node && node.span.startByte == 0)
        script root ↔
      ∀ node ∈ root.nodes, node.isNamed "comment" → opensInterpreter script.bytes node →
        (node.span.start.row = 0 ↔ node.span.startByte = 0) := by
  have hagree : ∀ node : Node,
      ((node.isNamed "comment" &&
          !(opensInterpreter script.bytes node && node.span.start.row == 0)) =
        (node.isNamed "comment" &&
          !(opensInterpreter script.bytes node && node.span.startByte == 0))) ↔
        (node.isNamed "comment" → opensInterpreter script.bytes node →
          (node.span.start.row = 0 ↔ node.span.startByte = 0)) := by
    intro node
    cases node.isNamed "comment" with
    | false => simp
    | true =>
      cases opensInterpreter script.bytes node with
      | false => simp
      | true =>
        rw [Bool.eq_iff_iff]
        simp [not_iff_not]
  refine ⟨fun h node hnode => (hagree node).mp ?_, fun h => ?_⟩
  · -- On the first row the survey tells no more than it should, and on other rows no less.
    by_cases hrow : node.span.start.row = 0
    · refine agree_of_map_filter_eq (t := fun comment => comment.location.line == 1) h
        (fun other hline => ?_) node hnode (by simp [commentAt, Location.ofSpan, hrow])
      have hother : other.span.start.row = 0 := by simpa [commentAt, Location.ofSpan] using hline
      simp +contextual [hother]
    · refine (agree_of_map_filter_eq (t := fun comment => comment.location.line != 1) h.symm
        (fun other hline => ?_) node hnode (by simp [commentAt, Location.ofSpan, hrow])).symm
      have hother : other.span.start.row ≠ 0 := by simpa [commentAt, Location.ofSpan] using hline
      simp +contextual [hother]
  · refine congrArg (List.map _) (List.filter_congr fun node hnode => ?_)
    exact (hagree node).mpr (h node hnode)

/-- **A survey tells every comment of a tree once**, in the order of the nodes, but for those that
open with `#!` on the first row. These are the comments but for the interpreter line exactly if no
comment is on the first row behind something else and opens with `#!`. -/
theorem docComments_of_tree {session : Session} (h : session.Reached Grammar.standard)
    (settings : ExtractionSettings) (script : Script) (root : Node) :
    ∃ facts, (run Grammar.standard settings script root session).result = .ok facts ∧
      facts.docComments =
        commentsBut (fun node => opensInterpreter script.bytes node && node.span.start.row == 0)
          script root ∧
      (facts.docComments =
          commentsBut (fun node => opensInterpreter script.bytes node && node.span.startByte == 0)
            script root ↔
        ∀ node ∈ root.nodes, node.isNamed "comment" → opensInterpreter script.bytes node →
          (node.span.start.row = 0 ↔ node.span.startByte = 0)) := by
  have hcomments := map_comment_remarks script root
  refine ⟨_, run_standard h settings script root, hcomments, ?_⟩
  rw [← commentsBut_eq_iff, ← hcomments]
  rfl

/-- A script with an interpreter line, and a comment that opens the same way on the second row. -/
def commentedScript : Script :=
  Script.ofText "t.sh" "#!/bin/sh\n#! two\n".toList

/-- The tree of the script. -/
def commentedTree : Node :=
  ⟨"program", true, false, none, ⟨0, 17, ⟨0, 0⟩, ⟨2, 0⟩⟩,
    [Node.onFirstLine "comment" true none 0 9 [], Node.onRow 1 10 "comment" true none 10 16 []]⟩

/-- The line that names the interpreter is left out, and a later one like it is kept. -/
theorem docComments_of_commented :
    Session.Reached Grammar.standard {} ∧
      ∃ facts, (run Grammar.standard {} commentedScript commentedTree {}).result = .ok facts ∧
        facts.docComments = [⟨"! two", ⟨"t.sh", 2, 1, 2, 7⟩⟩] := by
  obtain ⟨facts, hfacts, hcomments, -⟩ :=
    docComments_of_tree .fresh {} commentedScript commentedTree
  refine ⟨.fresh, facts, hfacts, ?_⟩
  rw [hcomments]
  decide +kernel

/-- A script with a comment behind an assignment on its first row. -/
def oddScript : Script :=
  Script.ofText "d.sh" "x=1 #! odd\nf() \x7b :; \x7d\n".toList

/-- The tree of the script. -/
def oddTree : Node :=
  ⟨"program", true, false, none, ⟨0, 22, ⟨0, 0⟩, ⟨2, 0⟩⟩,
    [Node.onFirstLine "variable_assignment" true none 0 3
        [Node.onFirstLine "variable_name" true (some "name") 0 1 [],
          Node.onFirstLine "=" false none 1 2 [],
          Node.onFirstLine "number" true (some "value") 2 3 []],
      Node.onFirstLine "comment" true none 4 10 [],
      Node.onRow 1 11 "function_definition" true none 11 21
        [Node.onRow 1 11 "word" true (some "name") 11 12 [],
          Node.onRow 1 11 "(" false none 12 13 [],
          Node.onRow 1 11 ")" false none 13 14 [],
          Node.onRow 1 11 "compound_statement" true (some "body") 15 21
            [Node.onRow 1 11 "\x7b" false none 15 16 [],
              Node.onRow 1 11 "command" true none 17 18
                [Node.onRow 1 11 "command_name" true (some "name") 17 18
                  [Node.onRow 1 11 "word" true none 17 18 []]],
              Node.onRow 1 11 ";" false none 18 19 [],
              Node.onRow 1 11 "\x7d" false none 20 21 []]]]⟩

/-- The comment is no interpreter line, and is lost all the same. -/
theorem comment_lost_behind_assignment :
    commentsBut (fun node => opensInterpreter oddScript.bytes node && node.span.startByte == 0)
        oddScript oddTree = [⟨"! odd", ⟨"d.sh", 1, 5, 1, 11⟩⟩] ∧
      ∃ facts, (run Grammar.standard {} oddScript oddTree {}).result = .ok facts ∧
        facts.docComments = [] := by
  refine ⟨by decide +kernel, _, run_standard .fresh {} oddScript oddTree, ?_⟩
  refine (map_comment_remarks oddScript oddTree).trans ?_
  decide +kernel

end ShellSurvey.Survey
