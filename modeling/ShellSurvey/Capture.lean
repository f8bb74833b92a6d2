import ShellSurvey.Location

/-!
# Captures

What a query match holds: for each label a piece of the tree and its text. A match keeps its
labels in order, and each label at most once.
-/

namespace ShellSurvey

/-- A captured piece of a tree. -/
structure Site where
  /-- The kind of the node. -/
  kind : String := ""
  /-- The part of the source. -/
  span : Span
  /-- The kinds of all children of the node's parent, if it has one. -/
  siblings : Option (List String) := none
  deriving DecidableEq, Repr

/-- A captured piece with its text. -/
structure Capture where
  /-- The piece. -/
  site : Site
  /-- The text. -/
  text : String
  deriving DecidableEq, Repr

/-- The captures of one match by label, in order. -/
abbrev Captures := List (String × Capture)

namespace Captures

/-- The capture of a label. -/
def get? (captures : Captures) (label : String) : Option Capture :=
  (captures.find? (fun entry => entry.1 == label)).map (·.2)

/-- Whether a label is captured. -/
def has (captures : Captures) (label : String) : Bool :=
  (captures.get? label).isSome

/-- The text of a label, or the given one where there is none. -/
def textD (captures : Captures) (label : String) (default : String) : String :=
  match captures.get? label with
  | some capture => capture.text
  | none => default

/-- The labels in order. -/
def labels (captures : Captures) : List String :=
  captures.map (·.1)

/-- The first of the labels that is captured. -/
def first? (captures : Captures) (labels : List String) : Option Capture :=
  labels.findSome? captures.get?

/-- The captures as a message shows them. -/
def display (captures : Captures) : String :=
  "QueryCaptures(" ++ ", ".intercalate captures.labels ++ ")"

end Captures

end ShellSurvey
