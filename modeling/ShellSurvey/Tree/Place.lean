import ShellSurvey.Tree.Node

/-!
# Places in a tree

A place is a node together with the way to it from the root: for each node on the way its
parent and its earlier siblings, nearest first. `Place.all` lists the places of a tree, every
node before its children, so whatever is found place by place comes in that order.
-/

namespace ShellSurvey

/-- One step on the way up from a node. -/
structure Frame where
  /-- The parent. -/
  parent : Node
  /-- The siblings before the node, in order. -/
  earlier : List Node
  deriving Repr

/-- A node and the way to it. -/
structure Place where
  /-- The node. -/
  node : Node
  /-- The steps up to the root, nearest first. -/
  frames : List Frame
  deriving Repr

namespace Place

/-- The parent's step. -/
def frame? (place : Place) : Option Frame :=
  place.frames.head?

/-- The kinds of the children of the parent. -/
def siblingKinds (place : Place) : Option (List String) :=
  place.frame?.map (fun frame => frame.parent.children.map (·.kind))

mutual

/-- The places of a tree that is reached by the given steps. -/
def below (frames : List Frame) : Node → List Place
  | ⟨kind, named, missing, role, span, children⟩ =>
    ⟨⟨kind, named, missing, role, span, children⟩, frames⟩ ::
      belowEach ⟨kind, named, missing, role, span, children⟩ frames [] children

/-- The places of the children of `parent` that follow `earlier`. -/
def belowEach (parent : Node) (frames : List Frame) (earlier : List Node) :
    List Node → List Place
  | [] => []
  | node :: rest =>
    below (⟨parent, earlier⟩ :: frames) node ++
      belowEach parent frames (earlier ++ [node]) rest

end

/-- The places of a tree. -/
def all (root : Node) : List Place :=
  below [] root

end Place

end ShellSurvey
