/-!
# Pieces of a list

A list is cut at the members that satisfy a test. The pieces keep everything else, in order,
so a list of `n` separators gives `n + 1` pieces, some of them perhaps empty. `splitWhere` cuts, and
`joinWith` puts a separator back between the pieces.
-/

namespace ShellSurvey.Text

variable {α : Type}

/-- Put `x` in front of the first piece. -/
def pushFront (x : α) : List (List α) → List (List α)
  | [] => [[x]]
  | piece :: rest => (x :: piece) :: rest

/-- The pieces of a list between the members that satisfy `cut`. -/
def splitWhere (cut : α → Bool) (xs : List α) : List (List α) :=
  xs.foldr (fun x pieces => if cut x then [] :: pieces else pushFront x pieces) [[]]

/-- The pieces one after the other, with `sep` between neighbours. -/
def joinWith (sep : α) : List (List α) → List α
  | [] => []
  | [piece] => piece
  | piece :: rest => piece ++ sep :: joinWith sep rest

@[simp]
theorem splitWhere_nil (cut : α → Bool) : splitWhere cut [] = [[]] :=
  rfl

theorem splitWhere_cons (cut : α → Bool) (x : α) (xs : List α) :
    splitWhere cut (x :: xs) =
      if cut x then [] :: splitWhere cut xs else pushFront x (splitWhere cut xs) :=
  rfl

/-- There is always at least one piece. -/
theorem splitWhere_ne_nil (cut : α → Bool) (xs : List α) : splitWhere cut xs ≠ [] := by
  cases xs with
  | nil => simp
  | cons x xs =>
    rw [splitWhere_cons]
    split
    · simp
    · cases splitWhere cut xs <;> simp [pushFront]

end ShellSurvey.Text
