import Mathlib.Algebra.GroupWithZero.Nat
import Mathlib.Data.List.Perm.Basic
import ShellSurvey.Proofs.Tree.Ways

/-!
# The tally of a tree

A tree is counted with a list of pending nodes. Each round counts the first of them and puts its
children in its place, the last child first. `visits` lists the nodes as the rounds come to them;
there are as many rounds as nodes, so counting comes to an end.

What carries the count is an invariant of the whole list: the rounds still to come visit all nodes
of all pending trees, each once (`visits_perm`). A round keeps it, since the nodes of a tree are its
root and the nodes of its children. The order among the children does not matter to a count.
-/

namespace ShellSurvey.Node

/-! ### Counts along the structure -/

theorem sizes_eq_sum (trees : List Node) : sizes trees = (trees.map size).sum := by
  induction trees with
  | nil => rfl
  | cons node rest ih => rw [sizes, ih, List.map_cons, List.sum_cons]

theorem faultsOf_eq_sum (trees : List Node) : faultsOf trees = (trees.map faults).sum := by
  induction trees with
  | nil => rfl
  | cons node rest ih => rw [faultsOf, ih, List.map_cons, List.sum_cons]

/-- The faults of a tree are that of its root and those of its children. -/
theorem faults_eq (node : Node) :
    node.faults = (if node.isFault then 1 else 0) + faultsOf node.children := by
  cases node
  rfl

/-- The size of a tree is the number of its nodes. -/
theorem length_nodes (node : Node) : node.nodes.length = node.size := by
  induction node using induction with
  | step node ih =>
    have hchildren : node.children.map (fun child => child.nodes.length) =
        node.children.map size := List.map_congr_left ih
    rw [nodes_eq, List.length_cons, List.length_flatMap, hchildren, size_eq, sizes_eq_sum,
      Nat.add_comm]

/-- The faults of a tree are counted over its nodes. -/
theorem countP_nodes (node : Node) : node.nodes.countP isFault = node.faults := by
  induction node using induction with
  | step node ih =>
    have hchildren : node.children.map (fun child => child.nodes.countP isFault) =
        node.children.map faults := List.map_congr_left ih
    have hflat : (node.children.flatMap nodes).countP isFault = faultsOf node.children := by
      rw [List.countP_flatMap, faultsOf_eq_sum, ← hchildren]
      rfl
    rw [nodes_eq, List.countP_cons, hflat, faults_eq, Nat.add_comm]

/-! ### The rounds -/

/-- The nodes in the order in which they are counted. -/
def visits (pending : List Node) : List Node :=
  match pending with
  | [] => []
  | node :: rest => node :: visits (expand node rest)
termination_by sizes pending
decreasing_by
  have h := sizes_expand node rest
  omega

/-- A round keeps what there is to visit: a node, and the nodes that are pending behind it. -/
theorem flatMap_nodes_expand (node : Node) (rest : List Node) :
    (node :: (expand node rest).flatMap nodes).Perm ((node :: rest).flatMap nodes) := by
  have hchildren : (node.children.reverse.flatMap nodes).Perm (node.children.flatMap nodes) :=
    node.children.reverse_perm.flatMap_right nodes
  rw [expand, List.flatMap_append, List.flatMap_cons, nodes_eq, List.cons_append]
  exact (hchildren.append_right _).cons node

/-- **The rounds visit the nodes of the pending trees, each once.** -/
theorem visits_perm (pending : List Node) : (visits pending).Perm (pending.flatMap nodes) := by
  fun_induction visits pending with
  | case1 => exact .nil
  | case2 node rest ih => exact (ih.cons node).trans (flatMap_nodes_expand node rest)

/-- A round counts the node that it visits. -/
theorem tallyFrom_eq (count : Count) (pending : List Node) :
    tallyFrom count pending =
      ⟨count.faults + (visits pending).countP isFault, count.total + (visits pending).length⟩ := by
  fun_induction tallyFrom count pending with
  | case1 count => simp [visits]
  | case2 count node rest ih =>
    rw [dite_eq_ite] at ih
    rw [ih, visits, List.countP_cons, List.length_cons]
    simp only [Count.mk.injEq]
    omega

/-- A tally counts the nodes that are visited. -/
theorem tally_eq_visits (root : Node) :
    root.tally = ⟨(visits [root]).countP isFault, (visits [root]).length⟩ := by
  rw [tally, tallyFrom_eq, Nat.zero_add, Nat.zero_add]

/-- Every node is visited once, in some order. -/
theorem visits_root_perm (root : Node) : (visits [root]).Perm root.nodes := by
  simpa using visits_perm [root]

/-- A tally has the faults and the size of the tree. -/
theorem tally_eq (root : Node) : root.tally = ⟨root.faults, root.size⟩ := by
  have hperm := visits_root_perm root
  rw [tally_eq_visits, hperm.countP_eq, hperm.length_eq, countP_nodes, length_nodes]

/-! ### Faults at any depth -/

/-- The nodes of a tree are those that some way leads to. -/
theorem exists_at?_iff {root node : Node} :
    (∃ way, root.at? way = some node) ↔ node ∈ root.nodes := by
  rw [← Place.map_node_all, List.mem_map]
  constructor
  · rintro ⟨way, hway⟩
    obtain ⟨place, hplace, -, hnode⟩ := Place.exists_mem_all_of_at? hway
    exact ⟨place, hplace, hnode⟩
  · rintro ⟨place, hplace, rfl⟩
    exact ⟨place.way, Place.at?_way_of_mem_all hplace⟩

theorem isFault_iff {node : Node} : node.isFault ↔ node.kind = "ERROR" ∨ node.missing := by
  rw [isFault, Bool.or_eq_true, beq_iff_eq]

/-- A tally tells of faults just if some node is one. -/
theorem hasFaults_tally_iff {root : Node} :
    root.tally.hasFaults ↔ ∃ node ∈ root.nodes, node.isFault := by
  rw [tally_eq, ← countP_nodes, Count.hasFaults, decide_eq_true_iff, List.countP_pos_iff]

/-- **A tree is counted along its structure.** The rounds visit every node of the tree once, so that
the tally is the number of faulty nodes and the number of nodes; these grow by what the children
come to. A tree has faults if some node in it, however deep, is an error or missing. -/
theorem tally_of_tree (root : Node) :
    (visits [root]).Perm root.nodes ∧
      root.tally = ⟨(visits [root]).countP isFault, (visits [root]).length⟩ ∧
      root.tally = ⟨root.faults, root.size⟩ ∧
      root.tally.faults ≤ root.tally.total ∧ 1 ≤ root.tally.total ∧
      root.tally.faults =
        (if root.isFault then 1 else 0) + (root.children.map (·.tally.faults)).sum ∧
      root.tally.total = 1 + (root.children.map (·.tally.total)).sum ∧
      (root.tally.hasFaults ↔
        ∃ way node, root.at? way = some node ∧ (node.kind = "ERROR" ∨ node.missing)) := by
  refine ⟨visits_root_perm root, tally_eq_visits root, tally_eq root, ?_, ?_, ?_, ?_, ?_⟩
  · rw [tally_eq, ← countP_nodes, ← length_nodes]
    exact List.countP_le_length
  · rw [tally_eq, size_eq]
    exact Nat.le_add_right 1 _
  · simp only [tally_eq, faults_eq root, faultsOf_eq_sum]
  · simp only [tally_eq, size_eq root, sizes_eq_sum]
  · rw [hasFaults_tally_iff]
    constructor
    · rintro ⟨node, hnode, hfault⟩
      obtain ⟨way, hway⟩ := exists_at?_iff.mpr hnode
      exact ⟨way, node, hway, isFault_iff.mp hfault⟩
    · rintro ⟨way, node, hway, hfault⟩
      exact ⟨node, exists_at?_iff.mp ⟨way, hway⟩, isFault_iff.mpr hfault⟩

end ShellSurvey.Node
