import Mathlib.Data.List.Basic
import ShellSurvey.Text.Quoted

/-!
# One layer of quotes

`Unquoted text inner` says what it is to remove one layer of matching quotes: either the text is
`inner` between two quotes of one kind, or it is no text between two such quotes and stays as it
is. `unquote_eq_iff` ties the function to it.
-/

namespace ShellSurvey.Text

/-- Whether a character is a quote. -/
def IsQuote (c : Char) : Prop := c = '"' ∨ c = '\''

/-- `inner` is what remains of `text` without one layer of matching quotes. -/
inductive Unquoted : List Char → List Char → Prop
  | quoted {q : Char} (inner : List Char) : IsQuote q → Unquoted (q :: (inner ++ [q])) inner
  | bare {text : List Char} :
      (∀ q inner, IsQuote q → text ≠ q :: (inner ++ [q])) → Unquoted text text

/-- A pair of equal quotes around a text is removed. -/
theorem unquote_quoted {q : Char} (h : IsQuote q) (inner : List Char) :
    unquote (q :: (inner ++ [q])) = inner := by
  cases inner with
  | nil => exact if_pos ⟨h, rfl⟩
  | cons c rest =>
    have hlast : (c :: (rest ++ [q])).getLast? = some q := by
      rw [← List.cons_append, List.getLast?_concat]
    rw [List.cons_append, unquote, if_pos ⟨h, hlast⟩, ← List.cons_append, List.dropLast_concat]

/-- Anything else stays as it is. -/
theorem unquote_bare {text : List Char}
    (h : ∀ q inner, IsQuote q → text ≠ q :: (inner ++ [q])) : unquote text = text := by
  match text with
  | [] => rfl
  | [_] => rfl
  | q :: c :: rest =>
    rw [unquote, if_neg]
    rintro ⟨hq, hlast⟩
    refine h q (c :: rest).dropLast hq ?_
    rw [List.dropLast_append_getLast? q hlast]

/-- The function removes one layer of quotes, and nothing else. -/
theorem unquote_eq_iff {text inner : List Char} : unquote text = inner ↔ Unquoted text inner := by
  constructor
  · rintro rfl
    by_cases h : ∃ q inner, IsQuote q ∧ text = q :: (inner ++ [q])
    · obtain ⟨q, inner, hq, rfl⟩ := h
      rw [unquote_quoted hq]
      exact .quoted inner hq
    · have hbare : ∀ q inner, IsQuote q → text ≠ q :: (inner ++ [q]) := fun q inner hq htext =>
        h ⟨q, inner, hq, htext⟩
      rw [unquote_bare hbare]
      exact .bare hbare
  · intro h
    cases h with
    | quoted inner hq => exact unquote_quoted hq inner
    | bare hbare => exact unquote_bare hbare

end ShellSurvey.Text
