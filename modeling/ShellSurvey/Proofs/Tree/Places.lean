import Mathlib.Data.List.Nodup
import ShellSurvey.Tree.Place

/-!
# The places below a node

A tree is walked from a place to the places of its children (`Place.children`), and the places of
a subtree are the place itself and those of the subtrees of its children (`Place.subtree_eq`).
What is proved about trees here follows that equation.

The main result is about a test that a single node of the tree passes. What looks at no more than
the two nearest ancestors for such a node finds something only at the children and grandchildren
of that node, in their order (`Place.flatMap_all_of_only`).
-/

namespace ShellSurvey

namespace Node

/-- A node on the first line of a script. -/
def onFirstLine (kind : String) (named : Bool) (role : Option String) (start stop : Nat)
    (children : List Node) : Node :=
  ⟨kind, named, false, role, ⟨start, stop, ⟨0, start⟩, ⟨0, stop⟩⟩, children⟩

/-- A node on one row of a script, given the first byte of the row. -/
def onRow (row first : Nat) (kind : String) (named : Bool) (role : Option String)
    (start stop : Nat) (children : List Node) : Node :=
  ⟨kind, named, false, role, ⟨start, stop, ⟨row, start - first⟩, ⟨row, stop - first⟩⟩, children⟩

theorem isNamed_eq_false {node : Node} {kind other : String} (h : node.isNamed kind)
    (hne : kind ≠ other) : node.isNamed other = false := by
  rw [isNamed, Bool.and_eq_true, beq_iff_eq] at h
  rw [isNamed, h.1, h.2, Bool.true_and]
  exact beq_eq_false_iff_ne.mpr hne

/-- Induction over trees: a property of all children of a node holds of the node. -/
theorem induction {P : Node → Prop}
    (step : ∀ node : Node, (∀ child ∈ node.children, P child) → P node) (node : Node) : P node :=
  @Node.rec P (fun nodes => ∀ child ∈ nodes, P child)
    (fun kind named missing role span children ih =>
      step ⟨kind, named, missing, role, span, children⟩ ih)
    (fun _ h => nomatch h)
    (fun _ _ hhead htail child hchild => by
      rcases List.mem_cons.mp hchild with rfl | hchild
      · exact hhead
      · exact htail child hchild)
    node

theorem nodesOf_eq (trees : List Node) : nodesOf trees = trees.flatMap nodes := by
  induction trees with
  | nil => rfl
  | cons node rest ih => rw [nodesOf, ih, List.flatMap_cons]

/-- The nodes of a tree are its root and the nodes of its children, in this order. -/
theorem nodes_eq (node : Node) : node.nodes = node :: node.children.flatMap nodes := by
  cases node
  rw [nodes, nodesOf_eq]

theorem self_mem_nodes (node : Node) : node ∈ node.nodes := by
  rw [nodes_eq]
  exact List.mem_cons_self

theorem mem_nodes_of_child {node child other : Node} (hchild : child ∈ node.children)
    (hother : other ∈ child.nodes) : other ∈ node.nodes := by
  rw [nodes_eq]
  exact List.mem_cons_of_mem _ (List.mem_flatMap.mpr ⟨child, hchild, hother⟩)

/-- A named node of a kind whose nodes start at different bytes is the only one at its start. -/
theorem filter_nodes_of_nodup {root node : Node} {kind : String}
    (hdistinct : ((root.nodes.filter (·.isNamed kind)).map (·.span.startByte)).Nodup)
    (hnode : node ∈ root.nodes) (hkind : node.isNamed kind) :
    root.nodes.filter (fun other =>
      other.isNamed kind && other.span.startByte == node.span.startByte) = [node] := by
  have hmem : node ∈ root.nodes.filter (·.isNamed kind) := List.mem_filter.mpr ⟨hnode, hkind⟩
  obtain ⟨before, after, hsplit⟩ := List.append_of_mem hmem
  rw [hsplit, List.map_append, List.map_cons, List.nodup_middle, List.nodup_cons,
    List.mem_append] at hdistinct
  have hother : ∀ other, other ∈ before ∨ other ∈ after →
      ¬ other.span.startByte == node.span.startByte := by
    intro other hmem heq
    refine hdistinct.1 (hmem.imp (fun h => ?_) fun h => ?_)
    · exact List.mem_map.mpr ⟨other, h, beq_iff_eq.mp heq⟩
    · exact List.mem_map.mpr ⟨other, h, beq_iff_eq.mp heq⟩
  have hfilter : root.nodes.filter (fun other =>
      other.isNamed kind && other.span.startByte == node.span.startByte) =
        (before ++ node :: after).filter
          (fun other => other.span.startByte == node.span.startByte) := by
    rw [← hsplit, List.filter_filter]
    refine List.filter_congr fun other _ => Bool.and_comm _ _
  rw [hfilter, List.filter_append, List.filter_cons_of_pos (by simp),
    List.filter_eq_nil_iff.mpr fun other h => hother other (.inl h),
    List.filter_eq_nil_iff.mpr fun other h => hother other (.inr h), List.nil_append]

end Node

namespace Place

/-- The places of children of `parent` that follow `earlier`. -/
def childrenFrom (parent : Node) (frames : List Frame) (earlier : List Node) :
    List Node → List Place
  | [] => []
  | node :: rest =>
    ⟨node, ⟨parent, earlier⟩ :: frames⟩ :: childrenFrom parent frames (earlier ++ [node]) rest

/-- The places of the children of the node at a place. -/
def children (place : Place) : List Place :=
  childrenFrom place.node place.frames [] place.node.children

/-- The places of the subtree at a place. -/
def subtree (place : Place) : List Place :=
  below place.frames place.node

/-! ### Children -/

theorem map_node_childrenFrom (parent : Node) (frames : List Frame) (earlier nodes : List Node) :
    (childrenFrom parent frames earlier nodes).map (·.node) = nodes := by
  induction nodes generalizing earlier with
  | nil => rfl
  | cons node rest ih => rw [childrenFrom, List.map_cons, ih]

/-- The children of a place are at the children of its node. -/
@[simp]
theorem map_node_children (place : Place) :
    place.children.map (·.node) = place.node.children :=
  map_node_childrenFrom _ _ _ _

/-- A child is framed by its parent and the siblings before it. -/
theorem frames_of_childrenFrom {parent : Node} {frames : List Frame} {earlier nodes : List Node}
    {before after : List Place} {child : Place}
    (h : childrenFrom parent frames earlier nodes = before ++ child :: after) :
    child.frames = ⟨parent, earlier ++ before.map (·.node)⟩ :: frames := by
  induction nodes generalizing earlier before with
  | nil => simp [childrenFrom] at h
  | cons node rest ih =>
    rw [childrenFrom] at h
    cases before with
    | nil =>
      obtain ⟨rfl, -⟩ := List.cons.inj h
      rw [List.map_nil, List.append_nil]
    | cons first before =>
      obtain ⟨rfl, hrest⟩ := List.cons.inj h
      rw [ih hrest, List.map_cons, List.append_assoc, List.singleton_append]

/-- The earlier siblings of a child are the nodes of the places before it. -/
theorem frames_of_children {place child : Place} {before after : List Place}
    (h : place.children = before ++ child :: after) :
    child.frames = ⟨place.node, before.map (·.node)⟩ :: place.frames := by
  simpa using frames_of_childrenFrom h

/-- A child has one frame more than its parent. -/
theorem exists_frames_of_mem_children {place child : Place} (h : child ∈ place.children) :
    ∃ earlier, child.frames = ⟨place.node, earlier⟩ :: place.frames := by
  obtain ⟨before, after, hsplit⟩ := List.append_of_mem h
  exact ⟨_, frames_of_children hsplit⟩

theorem node_mem_of_mem_children {place child : Place} (h : child ∈ place.children) :
    child.node ∈ place.node.children := by
  rw [← map_node_children]
  exact List.mem_map_of_mem h

/-! ### Subtrees -/

theorem belowEach_eq (parent : Node) (frames : List Frame) (earlier nodes : List Node) :
    belowEach parent frames earlier nodes =
      (childrenFrom parent frames earlier nodes).flatMap subtree := by
  induction nodes generalizing earlier with
  | nil => rfl
  | cons node rest ih => rw [belowEach, ih, childrenFrom, List.flatMap_cons, subtree]

/-- The places of a subtree are its root and the subtrees of the children, in this order. -/
theorem subtree_eq (place : Place) :
    place.subtree = place :: place.children.flatMap subtree := by
  obtain ⟨node, frames⟩ := place
  cases node
  rw [subtree, below, belowEach_eq, children]

/-- Induction over the subtrees of places. -/
theorem subtree_induction {P : Place → Prop}
    (step : ∀ place : Place, (∀ child ∈ place.children, P child) → P place) (place : Place) :
    P place := by
  have hnode : ∀ node : Node, ∀ frames, P ⟨node, frames⟩ := by
    intro node
    induction node using Node.induction with
    | step node ih =>
      intro frames
      refine step _ fun child hchild => ?_
      exact ih child.node (node_mem_of_mem_children hchild) child.frames
  exact hnode place.node place.frames

/-- The places of a subtree come in the order of its nodes. -/
theorem map_node_subtree (place : Place) : place.subtree.map (·.node) = place.node.nodes := by
  induction place using subtree_induction with
  | step place ih =>
    rw [subtree_eq, List.map_cons, List.map_flatMap, List.flatMap_congr ih, Node.nodes_eq,
      ← map_node_children, List.flatMap_map]

/-- All places, by their nodes, are all nodes in order. -/
theorem map_node_all (root : Node) : (all root).map (·.node) = root.nodes :=
  map_node_subtree ⟨root, []⟩

/-- The steps up from a place of a subtree pass nodes of the subtree only, until its top. -/
theorem frames_of_mem_subtree {place other : Place} (h : other ∈ place.subtree) :
    ∃ upper, other.frames = upper ++ place.frames ∧
      ∀ frame ∈ upper, frame.parent ∈ place.node.nodes := by
  induction place using subtree_induction with
  | step place ih =>
    rw [subtree_eq] at h
    rcases List.mem_cons.mp h with rfl | h
    · exact ⟨[], rfl, fun _ h => nomatch h⟩
    · obtain ⟨child, hchild, hother⟩ := List.mem_flatMap.mp h
      obtain ⟨upper, hframes, hupper⟩ := ih child hchild hother
      obtain ⟨earlier, hearlier⟩ := exists_frames_of_mem_children hchild
      refine ⟨upper ++ [⟨place.node, earlier⟩], ?_, fun frame hframe => ?_⟩
      · rw [hframes, hearlier, List.append_assoc, List.singleton_append]
      · rcases List.mem_append.mp hframe with hframe | hframe
        · exact Node.mem_nodes_of_child (node_mem_of_mem_children hchild) (hupper frame hframe)
        · rw [List.mem_singleton.mp hframe]
          exact place.node.self_mem_nodes

/-- What frames a place of a tree is a node of the tree. -/
theorem parent_mem_of_mem_all {root : Node} {place : Place} (h : place ∈ all root) {frame : Frame}
    (hframe : frame ∈ place.frames) : frame.parent ∈ root.nodes := by
  have hsubtree : place ∈ subtree ⟨root, []⟩ := h
  obtain ⟨upper, hframes, hupper⟩ := frames_of_mem_subtree hsubtree
  rw [List.append_nil] at hframes
  exact hupper frame (hframes ▸ hframe)

/-! ### The only node that passes a test -/

section Only

variable {α : Type} {test : Node → Bool} {f : Place → List α}

/-- If there is one result in all, then one item gives it and the others give none. -/
private theorem exists_of_flatMap_eq_singleton {β γ : Type} {g : β → List γ} {c : γ}
    {l : List β} (h : l.flatMap g = [c]) :
    ∃ before b after, l = before ++ b :: after ∧ g b = [c] ∧ (∀ x ∈ before, g x = []) ∧
      ∀ x ∈ after, g x = [] := by
  induction l with
  | nil => cases h
  | cons b rest ih =>
    rw [List.flatMap_cons, List.append_eq_singleton_iff] at h
    rcases h with ⟨hb, hrest⟩ | ⟨hb, hrest⟩
    · obtain ⟨before, x, after, rfl, hx, hbefore, hafter⟩ := ih hrest
      exact ⟨b :: before, x, after, rfl, hx, List.forall_mem_cons.mpr ⟨hb, hbefore⟩, hafter⟩
    · exact ⟨[], b, rest, rfl, hb, List.forall_mem_nil _, List.flatMap_eq_nil_iff.mp hrest⟩

/-- Whether no node on the two nearest steps up from a place passes the test. -/
def Quiet (test : Node → Bool) (place : Place) : Prop :=
  ∀ frame ∈ place.frames.take 2, test frame.parent = false

/-- A child of a node that does not pass is quiet if its parent is. -/
theorem quiet_of_mem_children {place child : Place} (hplace : Quiet test place)
    (hnode : test place.node = false) (hchild : child ∈ place.children) : Quiet test child := by
  obtain ⟨earlier, hframes⟩ := exists_frames_of_mem_children hchild
  intro frame hframe
  rw [hframes, List.take_succ_cons] at hframe
  rcases List.mem_cons.mp hframe with rfl | hframe
  · exact hnode
  · exact hplace frame (List.take_subset_take_left _ (by omega) hframe)

theorem flatMap_subtree_eq (place : Place) :
    place.subtree.flatMap f =
      f place ++ place.children.flatMap (fun child => child.subtree.flatMap f) := by
  rw [subtree_eq, List.flatMap_cons, List.flatMap_assoc]

/-- Nothing is found below a quiet place if no node there passes. -/
theorem flatMap_subtree_of_quiet (hf : ∀ place, Quiet test place → f place = []) {place : Place}
    (hplace : Quiet test place) (hnodes : ∀ node ∈ place.node.nodes, test node = false) :
    place.subtree.flatMap f = [] := by
  induction place using subtree_induction with
  | step place ih =>
    rw [flatMap_subtree_eq, hf place hplace, List.nil_append, List.flatMap_eq_nil_iff]
    intro child hchild
    refine ih child hchild (quiet_of_mem_children hplace ?_ hchild) fun node hnode => ?_
    · exact hnodes _ place.node.self_mem_nodes
    · exact hnodes node (Node.mem_nodes_of_child (node_mem_of_mem_children hchild) hnode)

/-- Two steps below a node that passes the test, no other node of its subtree being found. -/
theorem quiet_of_mem_grandchildren {place child grandchild : Place}
    (hplace : test place.node = false) (hchild : child ∈ place.children)
    (hnode : test child.node = false) (hgrandchild : grandchild ∈ child.children) :
    Quiet test grandchild := by
  obtain ⟨earlier, hframes⟩ := exists_frames_of_mem_children hchild
  obtain ⟨nearer, hnearer⟩ := exists_frames_of_mem_children hgrandchild
  intro frame hframe
  rw [hnearer, hframes, List.take_succ_cons, List.take_succ_cons, List.take_zero] at hframe
  rcases List.mem_cons.mp hframe with rfl | hframe
  · exact hnode
  · rw [List.mem_singleton.mp hframe]
    exact hplace

/-- Below a node with no other node in its subtree that passes the test, something is found at
children and grandchildren only. -/
theorem flatMap_subtree_of_top (hf : ∀ place, Quiet test place → f place = []) {place : Place}
    (hchildren : ∀ child ∈ place.node.children, ∀ node ∈ child.nodes, test node = false) :
    place.children.flatMap (fun child => child.subtree.flatMap f) =
      place.children.flatMap (fun child => f child ++ child.children.flatMap f) := by
  refine List.flatMap_congr fun child hchild => ?_
  rw [flatMap_subtree_eq]
  congr 1
  have hbelow := hchildren child.node (node_mem_of_mem_children hchild)
  have hchildTest : test child.node = false := hbelow _ child.node.self_mem_nodes
  refine List.flatMap_congr fun grandchild hgrandchild => ?_
  have hmem := node_mem_of_mem_children hgrandchild
  have hgrandchildTest : test grandchild.node = false :=
    hbelow _ (Node.mem_nodes_of_child hmem grandchild.node.self_mem_nodes)
  rw [flatMap_subtree_eq, List.flatMap_eq_nil_iff.mpr, List.append_nil]
  -- From here on both nearest ancestors are below the top, and pass no test.
  intro place hplace
  refine flatMap_subtree_of_quiet hf ?_ fun node hnode => ?_
  · exact quiet_of_mem_grandchildren hchildTest hgrandchild hgrandchildTest hplace
  · have hnode := Node.mem_nodes_of_child (node_mem_of_mem_children hplace) hnode
    exact hbelow node (Node.mem_nodes_of_child hmem hnode)

/-- If one node passes, then all that is found is at its children and grandchildren. -/
theorem flatMap_subtree_of_only (hf : ∀ place, Quiet test place → f place = []) {place : Place}
    {top : Node} (hplace : Quiet test place) (honly : place.node.nodes.filter test = [top]) :
    ∃ found : Place, found.node = top ∧
      (∀ child ∈ top.children, ∀ node ∈ child.nodes, test node = false) ∧
      place.subtree.flatMap f =
        found.children.flatMap (fun child => f child ++ child.children.flatMap f) := by
  induction place using subtree_induction with
  | step place ih =>
    rw [Node.nodes_eq, List.filter_cons] at honly
    split_ifs at honly with htest
    · -- The node itself is the one, and nothing below it passes the test.
      obtain ⟨rfl, hnone⟩ := List.cons.inj honly
      have hchildren : ∀ child ∈ place.node.children, ∀ node ∈ child.nodes,
          test node = false := by
        intro child hchild node hnode
        have hall := List.filter_eq_nil_iff.mp hnone
        simpa using hall node (List.mem_flatMap.mpr ⟨child, hchild, hnode⟩)
      refine ⟨place, rfl, hchildren, ?_⟩
      rw [flatMap_subtree_eq, hf place hplace, List.nil_append, flatMap_subtree_of_top hf hchildren]
    · -- It is below one of the children, and nothing below the others passes the test.
      have hnode : test place.node = false := by simpa using htest
      rw [List.filter_flatMap, ← map_node_children, List.flatMap_map] at honly
      obtain ⟨before, child, after, hsplit, hone, hbefore, hafter⟩ :=
        exists_of_flatMap_eq_singleton honly
      have hmem : ∀ {other}, other ∈ before ++ child :: after → Quiet test other := fun h =>
        quiet_of_mem_children hplace hnode (hsplit ▸ h)
      have hquiet : ∀ other ∈ before ++ child :: after,
          other.node.nodes.filter test = [] → other.subtree.flatMap f = [] := by
        intro other hother hnone
        refine flatMap_subtree_of_quiet hf (hmem hother) fun node hnode => ?_
        simpa using List.filter_eq_nil_iff.mp hnone node hnode
      have hchild : child ∈ before ++ child :: after := by simp
      have hbefore' : before.flatMap (fun child => child.subtree.flatMap f) = [] :=
        List.flatMap_eq_nil_iff.mpr fun other hother =>
          hquiet other (by simp [hother]) (hbefore other hother)
      have hafter' : after.flatMap (fun child => child.subtree.flatMap f) = [] :=
        List.flatMap_eq_nil_iff.mpr fun other hother =>
          hquiet other (by simp [hother]) (hafter other hother)
      obtain ⟨found, hfound, hchildren, heq⟩ := ih child (hsplit ▸ hchild) (hmem hchild) hone
      refine ⟨found, hfound, hchildren, ?_⟩
      rw [flatMap_subtree_eq, hf place hplace, hsplit, List.flatMap_append, List.flatMap_cons,
        hbefore', hafter', heq, List.nil_append, List.nil_append, List.append_nil]

/-- **What looks for the only node of its kind** two steps up finds something at the children and
the grandchildren of that node, one child after the other. -/
theorem flatMap_all_of_only (hf : ∀ place, Quiet test place → f place = []) {root top : Node}
    (honly : root.nodes.filter test = [top]) :
    ∃ found : Place, found.node = top ∧
      (∀ child ∈ top.children, ∀ node ∈ child.nodes, test node = false) ∧
      (all root).flatMap f =
        found.children.flatMap (fun child => f child ++ child.children.flatMap f) := by
  have hquiet : Quiet test ⟨root, []⟩ := fun _ h => nomatch h
  exact flatMap_subtree_of_only hf hquiet honly

/-- The same for a node that is the only one of its kind at its start. -/
theorem flatMap_all_of_start {root top : Node} {kind : String}
    (hdistinct : ((root.nodes.filter (·.isNamed kind)).map (·.span.startByte)).Nodup)
    (htop : top ∈ root.nodes) (hkind : top.isNamed kind)
    (hf : ∀ place, ∀ x ∈ f place, ∃ frame ∈ place.frames.take 2, frame.parent.isNamed kind ∧
      frame.parent.span.startByte = top.span.startByte) :
    ∃ found : Place, found.node = top ∧
      (∀ child ∈ top.children, ∀ node ∈ child.nodes,
        (node.isNamed kind && node.span.startByte == top.span.startByte) = false) ∧
      (all root).flatMap f =
        found.children.flatMap (fun child => f child ++ child.children.flatMap f) := by
  refine flatMap_all_of_only (fun place hplace => ?_)
    (Node.filter_nodes_of_nodup hdistinct htop hkind)
  refine List.eq_nil_iff_forall_not_mem.mpr fun x hx => ?_
  obtain ⟨frame, hframe, hparent, hstart⟩ := hf place x hx
  have htest := hplace frame hframe
  simp [hparent, hstart] at htest

end Only

end Place

end ShellSurvey
