import ShellSurvey.Tree.Node
import ShellSurvey.Value.Basic

/-!
# Trees as data

A parser hands over a tree as nested lists. A node is a list of its kind, whether it is named,
whether it is missing, its role, its first byte and the byte behind its last one, its first row
and column, the row and column behind it, and its children.
-/

namespace ShellSurvey.Node

/-- The number that data holds. -/
def numberOf : Value → Nat
  | .int n => n.toNat
  | _ => 0

/-- Whether data is set. -/
def isSet : Value → Bool
  | .bool b => b
  | .int n => n != 0
  | _ => false

/-- The text that data holds. -/
def textOf : Value → Option String
  | .text text => some text
  | _ => none

/-- The node of no source. -/
def bare (kind : String) : Node where
  kind := kind
  named := true
  missing := false
  role := none
  span := ⟨0, 0, ⟨0, 0⟩, ⟨0, 0⟩⟩
  children := []

mutual

/-- The tree that data holds; data of another shape is a node without a kind. -/
def ofValue : Value → Node
  | .list [kind, named, missing, role, first, behind, row, column, lastRow, lastColumn, items] =>
    { kind := (textOf kind).getD ""
      named := isSet named
      missing := isSet missing
      role := textOf role
      span :=
        ⟨numberOf first, numberOf behind, ⟨numberOf row, numberOf column⟩,
          ⟨numberOf lastRow, numberOf lastColumn⟩⟩
      children := childrenOf items }
  | _ => bare ""

/-- The children that data holds. -/
def childrenOf : Value → List Node
  | .list items => ofValues items
  | _ => []

/-- The trees of a list. -/
def ofValues : List Value → List Node
  | [] => []
  | value :: rest => ofValue value :: ofValues rest

end

end ShellSurvey.Node
