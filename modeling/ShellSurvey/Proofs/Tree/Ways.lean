import Mathlib.Data.List.Lex
import ShellSurvey.Proofs.Tree.Places

/-!
# Ways into a tree

A node of a tree is told apart from all others by the way down to it: the index of the child that
is taken at each step (`Node.at?`). A node comes before all that is below it, and all that is below
a child comes before the children after it. This is the lexicographic order of the ways.

A place knows the way to it, since it knows the siblings before each node it has passed
(`Place.way`). The places of a tree are those at the ends of its ways, each once, and they are
listed in the order of the ways (`Place.pairwise_way_all`).
-/

namespace ShellSurvey

namespace Node

/-- The node at the end of a way down from a node. -/
def at? (node : Node) : List Nat → Option Node
  | [] => some node
  | index :: way =>
    match node.children[index]? with
    | some child => child.at? way
    | none => none

theorem at?_cons_of_child {node child : Node} {index : Nat}
    (hchild : node.children[index]? = some child) (way : List Nat) :
    node.at? (index :: way) = child.at? way := by
  rw [at?, hchild]

theorem at?_cons_eq_some {node other : Node} {index : Nat} {way : List Nat}
    (h : node.at? (index :: way) = some other) :
    ∃ child, node.children[index]? = some child ∧ child.at? way = some other := by
  rw [at?] at h
  cases hchild : node.children[index]? with
  | none => simp [hchild] at h
  | some child => exact ⟨child, rfl, by simpa [hchild] using h⟩

/-- A way ends at a child of the node that all but its last step lead to. -/
theorem at?_concat_eq_some_iff {node other : Node} {way : List Nat} {index : Nat} :
    node.at? (way ++ [index]) = some other ↔
      ∃ parent, node.at? way = some parent ∧ parent.children[index]? = some other := by
  induction way generalizing node with
  | nil =>
    rw [List.nil_append]
    constructor
    · intro h
      obtain ⟨child, hchild, hother⟩ := at?_cons_eq_some h
      exact ⟨node, rfl, hchild.trans hother⟩
    · rintro ⟨parent, hparent, hother⟩
      obtain rfl := Option.some.inj hparent
      exact at?_cons_of_child hother []
  | cons first rest ih =>
    rw [List.cons_append]
    constructor
    · intro h
      obtain ⟨child, hchild, hother⟩ := at?_cons_eq_some h
      rw [at?_cons_of_child hchild]
      exact ih.mp hother
    · rintro ⟨parent, hparent, hother⟩
      obtain ⟨child, hchild, hparent⟩ := at?_cons_eq_some hparent
      rw [at?_cons_of_child hchild]
      exact ih.mpr ⟨parent, hparent, hother⟩

end Node

namespace Place

/-- The way down to a place. -/
def way (place : Place) : List Nat :=
  (place.frames.map (·.earlier.length)).reverse

/-! ### Steps down -/

/-- The last step of a way counts the siblings before. -/
theorem way_of_frames {place : Place} {frame : Frame} {above : List Frame}
    (h : place.frames = frame :: above) :
    place.way = way ⟨frame.parent, above⟩ ++ [frame.earlier.length] := by
  rw [way, h, List.map_cons, List.reverse_cons]
  rfl

/-- The way to a child has one step more, the number of siblings before it. -/
theorem way_of_children {place child : Place} {before after : List Place}
    (h : place.children = before ++ child :: after) :
    child.way = place.way ++ [before.length] := by
  rw [way_of_frames (frames_of_children h), List.length_map]

theorem way_getElem (place : Place) {index : Nat} (h : index < place.children.length) :
    place.children[index].way = place.way ++ [index] := by
  have hsplit : place.children =
      place.children.take index ++ place.children[index] :: place.children.drop (index + 1) := by
    rw [← List.drop_eq_getElem_cons h, List.take_append_drop]
  rw [way_of_children hsplit, List.length_take_of_le (Nat.le_of_lt h)]

/-- A child place is at the child node of the same number. -/
theorem child_of_children {place child : Place} {before after : List Place}
    (h : place.children = before ++ child :: after) :
    place.node.children[before.length]? = some child.node := by
  rw [← map_node_children, h, List.getElem?_map, List.getElem?_append_right (Nat.le_refl _),
    Nat.sub_self]
  rfl

theorem exists_child {place : Place} {index : Nat} {node : Node}
    (h : place.node.children[index]? = some node) :
    ∃ child ∈ place.children, child.way = place.way ++ [index] ∧ child.node = node := by
  rw [← map_node_children, List.getElem?_map] at h
  obtain ⟨child, hchild, rfl⟩ := Option.map_eq_some_iff.mp h
  obtain ⟨hlt, rfl⟩ := List.getElem?_eq_some_iff.mp hchild
  exact ⟨_, List.getElem_mem hlt, place.way_getElem hlt, rfl⟩

/-- A place of a subtree that is not its top is a child of another one. -/
theorem exists_parent_of_mem_subtree {place other : Place} (h : other ∈ place.subtree) :
    other = place ∨ ∃ parent ∈ place.subtree, other ∈ parent.children := by
  induction place using subtree_induction with
  | step place ih =>
    rw [subtree_eq] at h
    rcases List.mem_cons.mp h with rfl | h
    · exact .inl rfl
    · obtain ⟨child, hchild, hother⟩ := List.mem_flatMap.mp h
      refine .inr ?_
      rcases ih child hchild hother with rfl | ⟨parent, hparent, hother⟩
      · exact ⟨place, by rw [subtree_eq]; exact List.mem_cons_self, hchild⟩
      · refine ⟨parent, ?_, hother⟩
        rw [subtree_eq]
        exact List.mem_cons_of_mem _ (List.mem_flatMap.mpr ⟨child, hchild, hparent⟩)

/-! ### Ways within a subtree -/

/-- A place of a subtree is reached by going down from its root. -/
theorem way_of_mem_subtree {place other : Place} (h : other ∈ place.subtree) :
    ∃ down, other.way = place.way ++ down ∧ place.node.at? down = some other.node := by
  induction place using subtree_induction with
  | step place ih =>
    rw [subtree_eq] at h
    rcases List.mem_cons.mp h with rfl | h
    · exact ⟨[], (List.append_nil _).symm, rfl⟩
    · obtain ⟨child, hchild, hother⟩ := List.mem_flatMap.mp h
      obtain ⟨down, hway, hdown⟩ := ih child hchild hother
      obtain ⟨before, after, hsplit⟩ := List.append_of_mem hchild
      refine ⟨before.length :: down, ?_, ?_⟩
      · rw [hway, way_of_children hsplit, List.append_assoc, List.singleton_append]
      · rw [Node.at?_cons_of_child (child_of_children hsplit), hdown]

/-- Every way down leads to a place of the subtree. -/
theorem exists_mem_subtree {place : Place} {down : List Nat} {node : Node}
    (h : place.node.at? down = some node) :
    ∃ other ∈ place.subtree, other.way = place.way ++ down ∧ other.node = node := by
  induction down generalizing place with
  | nil =>
    refine ⟨place, ?_, (List.append_nil _).symm, Option.some.inj h⟩
    rw [subtree_eq]
    exact List.mem_cons_self
  | cons index down ih =>
    obtain ⟨next, hnext, hnode⟩ := Node.at?_cons_eq_some h
    obtain ⟨child, hchild, hway, rfl⟩ := exists_child hnext
    obtain ⟨other, hother, hdown, hnode⟩ := ih hnode
    refine ⟨other, ?_, ?_, hnode⟩
    · rw [subtree_eq]
      exact List.mem_cons_of_mem _ (List.mem_flatMap.mpr ⟨child, hchild, hother⟩)
    · rw [hdown, hway, List.append_assoc, List.singleton_append]

/-- A place of a subtree comes before all others of it that are listed after it. -/
theorem pairwise_way_subtree (place : Place) :
    place.subtree.Pairwise fun a b => List.Lex (· < ·) a.way b.way := by
  induction place using subtree_induction with
  | step place ih =>
    rw [subtree_eq, List.pairwise_cons, List.pairwise_flatMap]
    refine ⟨fun other hother => ?_, ih, ?_⟩
    · -- A way is shorter than those that go on from it.
      obtain ⟨child, hchild, hother⟩ := List.mem_flatMap.mp hother
      obtain ⟨before, after, hsplit⟩ := List.append_of_mem hchild
      obtain ⟨down, hway, -⟩ := way_of_mem_subtree hother
      rw [hway, way_of_children hsplit, List.append_assoc]
      simpa using List.Lex.append_left (· < ·) (List.Lex.nil (a := before.length) (l := down))
        place.way
    · -- Ways through different children part at the index of the child.
      rw [List.pairwise_iff_getElem]
      intro i j hi hj hlt a ha b hb
      obtain ⟨downa, hwaya, -⟩ := way_of_mem_subtree ha
      obtain ⟨downb, hwayb, -⟩ := way_of_mem_subtree hb
      rw [hwaya, hwayb, place.way_getElem hi, place.way_getElem hj, List.append_assoc,
        List.append_assoc]
      exact List.Lex.append_left _ (List.Lex.rel hlt) place.way

/-! ### Ways of a tree -/

/-- **The places of a tree are listed in the order of the ways to them.** -/
theorem pairwise_way_all (root : Node) :
    (all root).Pairwise fun a b => List.Lex (· < ·) a.way b.way :=
  pairwise_way_subtree ⟨root, []⟩

variable {root : Node} {place : Place}

/-- The way of a place leads to its node. -/
theorem at?_way_of_mem_all (h : place ∈ all root) : root.at? place.way = some place.node := by
  have hsubtree : place ∈ subtree ⟨root, []⟩ := h
  obtain ⟨down, hway, hdown⟩ := way_of_mem_subtree hsubtree
  rw [hway]
  exact hdown

/-- Every way that leads to a node is the way of a place. -/
theorem exists_mem_all_of_at? {way : List Nat} {node : Node} (h : root.at? way = some node) :
    ∃ place ∈ all root, place.way = way ∧ place.node = node := by
  have hdown : (⟨root, []⟩ : Place).node.at? way = some node := h
  exact exists_mem_subtree hdown

/-- The step up from a place of a tree leads to its parent, and tells which child it is. -/
theorem step_of_mem_all (h : place ∈ all root) {frame : Frame} {above : List Frame}
    (hframes : place.frames = frame :: above) :
    root.at? (way ⟨frame.parent, above⟩) = some frame.parent ∧
      ∃ later, frame.parent.children = frame.earlier ++ place.node :: later := by
  have hsubtree : place ∈ subtree ⟨root, []⟩ := h
  rcases exists_parent_of_mem_subtree hsubtree with rfl | ⟨parent, hparent, hchild⟩
  · cases hframes
  · obtain ⟨before, after, hsplit⟩ := List.append_of_mem hchild
    rw [frames_of_children hsplit] at hframes
    obtain ⟨rfl, rfl⟩ := List.cons.inj hframes
    refine ⟨at?_way_of_mem_all hparent, after.map (·.node), ?_⟩
    dsimp only
    rw [← map_node_children, hsplit, List.map_append, List.map_cons]

/-- The parent of a place is the node at the end of the way without its last step. -/
theorem exists_frame?_iff (h : place ∈ all root) {P : Node → Prop} :
    (∃ frame ∈ place.frame?, P frame.parent) ↔
      ∃ upper index parent, place.way = upper ++ [index] ∧ root.at? upper = some parent ∧
        P parent := by
  rw [frame?]
  cases hframes : place.frames with
  | nil => simp [way, hframes]
  | cons frame above =>
    have hway := way_of_frames hframes
    obtain ⟨hstep, -⟩ := step_of_mem_all h hframes
    constructor
    · rintro ⟨_, hframe, hparent⟩
      obtain rfl := Option.some.inj hframe
      exact ⟨_, _, _, hway, hstep, hparent⟩
    · rintro ⟨upper, index, parent, hsplit, hupper, hparent⟩
      obtain ⟨rfl, -⟩ := List.append_inj' (hway.symm.trans hsplit) rfl
      obtain rfl := Option.some.inj (hstep.symm.trans hupper)
      exact ⟨frame, rfl, hparent⟩

end Place

end ShellSurvey
