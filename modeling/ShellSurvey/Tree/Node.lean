import ShellSurvey.Text.Utf8

/-!
# Syntax trees

A node of the tree that a parser builds for a script. Places count bytes of the source; rows
and columns start at zero.

A tree is counted in two ways: `Node.tally` keeps a list of nodes still to be counted, as a
deep tree asks for, while `Node.size` and `Node.faults` follow its structure.
-/

namespace ShellSurvey

/-- A row and a column, both counted from zero. -/
structure Point where
  /-- The row. -/
  row : Nat
  /-- The column, in bytes. -/
  column : Nat
  deriving DecidableEq, Repr, Inhabited

/-- The part of a source that a node covers. -/
structure Span where
  /-- The first byte. -/
  startByte : Nat := 0
  /-- The byte behind the last one. -/
  endByte : Nat := 0
  /-- Where the first byte stands. -/
  start : Point
  /-- Where the byte behind the last one stands. -/
  stop : Point
  deriving DecidableEq, Repr, Inhabited

/-- The text of a part of a source. -/
def Span.text (source : List UInt8) (span : Span) : List Char :=
  Text.Utf8.decode (Text.Utf8.slice source span.startByte span.endByte)

/-- A node of a syntax tree. -/
structure Node where
  /-- The kind of the node. -/
  kind : String
  /-- Whether the kind is a named one of the grammar. -/
  named : Bool
  /-- Whether the parser put the node in where the source has none. -/
  missing : Bool
  /-- The role of the node in its parent. -/
  role : Option String
  /-- The part of the source. -/
  span : Span
  /-- The children in order. -/
  children : List Node
  deriving Repr, Inhabited

namespace Node

/-- Whether a node is a named one of the kind. -/
def isNamed (node : Node) (kind : String) : Bool :=
  node.named && node.kind == kind

/-- Whether a node has the role in its parent. -/
def hasRole (node : Node) (role : String) : Bool :=
  node.role == some role

/-- The text of a node. -/
def text (source : List UInt8) (node : Node) : List Char :=
  node.span.text source

/-- Whether a node marks a part of the source that does not parse. -/
def isFault (node : Node) : Bool :=
  node.kind == "ERROR" || node.missing

/-! ### Counting along the structure -/

mutual

/-- The number of nodes of a tree. -/
def size : Node → Nat
  | ⟨_, _, _, _, _, children⟩ => 1 + sizes children

/-- The number of nodes of several trees. -/
def sizes : List Node → Nat
  | [] => 0
  | node :: rest => size node + sizes rest

end

mutual

/-- The number of faulty nodes of a tree. -/
def faults : Node → Nat
  | ⟨kind, _, missing, _, _, children⟩ =>
    (if kind == "ERROR" || missing then 1 else 0) + faultsOf children

/-- The number of faulty nodes of several trees. -/
def faultsOf : List Node → Nat
  | [] => 0
  | node :: rest => faults node + faultsOf rest

end

mutual

/-- The nodes of a tree, every node before its children. -/
def nodes : Node → List Node
  | ⟨kind, named, missing, role, span, children⟩ =>
    ⟨kind, named, missing, role, span, children⟩ :: nodesOf children

/-- The nodes of several trees. -/
def nodesOf : List Node → List Node
  | [] => []
  | node :: rest => nodes node ++ nodesOf rest

end

/-! ### Counting with a list of pending nodes -/

/-- How many nodes of a tree are faulty, and how many there are. -/
structure Count where
  /-- The faulty nodes. -/
  faults : Nat
  /-- All nodes. -/
  total : Nat
  deriving DecidableEq, Repr

/-- Whether some node is faulty. -/
def Count.hasFaults (count : Count) : Bool :=
  decide (0 < count.faults)

theorem size_eq (node : Node) : node.size = 1 + sizes node.children := by
  cases node
  rfl

theorem sizes_append (first second : List Node) :
    sizes (first ++ second) = sizes first + sizes second := by
  induction first with
  | nil => simp [sizes]
  | cons node rest ih => simp only [List.cons_append, sizes, ih]; omega

theorem sizes_reverse (trees : List Node) : sizes trees.reverse = sizes trees := by
  induction trees with
  | nil => rfl
  | cons node rest ih =>
    simp only [List.reverse_cons, sizes_append, sizes, ih]
    omega

/-- The pending nodes once a node has been counted: its children come first, the last child
before the others. -/
def expand (node : Node) (rest : List Node) : List Node :=
  node.children.reverse ++ rest

theorem sizes_expand (node : Node) (rest : List Node) :
    sizes (expand node rest) + 1 = sizes (node :: rest) := by
  rw [expand, sizes_append, sizes_reverse, sizes, size_eq]
  omega

/-- Count the pending nodes on top of what has been counted. -/
def tallyFrom (count : Count) (pending : List Node) : Count :=
  match pending with
  | [] => count
  | node :: rest =>
    tallyFrom ⟨count.faults + (if node.isFault then 1 else 0), count.total + 1⟩
      (expand node rest)
termination_by sizes pending
decreasing_by
  have h := sizes_expand node rest
  omega

/-- Count the nodes of a tree. -/
def tally (root : Node) : Count :=
  tallyFrom ⟨0, 0⟩ [root]

end Node

end ShellSurvey
