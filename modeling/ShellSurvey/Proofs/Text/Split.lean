import Mathlib.Data.List.Basic
import ShellSurvey.Text.Split

/-!
# Cuts and pieces

What is known of the pieces of a list, beyond that joining undoes cutting: pieces that were joined
are found again (`splitWhere_joinWith`), no piece has a separator, and a list that is written down
in two ways, one of them around a certain member, is cut at that member
(`exists_of_append_eq`).
-/

namespace ShellSurvey.Text

variable {α : Type} {cut : α → Bool} {sep : α}

/-- The first piece ends at the first cut. -/
theorem splitWhere_append_cons {xs : List α} (h : ∀ x ∈ xs, cut x = false) (hsep : cut sep)
    (rest : List α) : splitWhere cut (xs ++ sep :: rest) = xs :: splitWhere cut rest := by
  induction xs with
  | nil => rw [List.nil_append, splitWhere_cons, if_pos hsep]
  | cons x xs ih =>
    have hx : ¬cut x := by simp [h x List.mem_cons_self]
    rw [List.cons_append, splitWhere_cons, if_neg hx,
      ih fun y hy => h y (List.mem_cons_of_mem x hy), pushFront]

theorem splitWhere_of_forall_not {xs : List α} (h : ∀ x ∈ xs, cut x = false) :
    splitWhere cut xs = [xs] := by
  induction xs with
  | nil => rfl
  | cons x xs ih =>
    have hx : ¬cut x := by simp [h x List.mem_cons_self]
    rw [splitWhere_cons, if_neg hx, ih fun y hy => h y (List.mem_cons_of_mem x hy), pushFront]

theorem splitWhere_of_notMem [BEq α] [LawfulBEq α] {xs : List α} (h : sep ∉ xs) :
    splitWhere (· == sep) xs = [xs] := by
  refine splitWhere_of_forall_not fun x hx => ?_
  rw [beq_eq_false_iff_ne]
  rintro rfl
  exact h hx

/-- A separator parts the pieces before it from those behind it. -/
theorem splitWhere_append_sep (hsep : cut sep) (xs ys : List α) :
    splitWhere cut (xs ++ sep :: ys) = splitWhere cut xs ++ splitWhere cut ys := by
  induction xs with
  | nil => rw [List.nil_append, splitWhere_cons, if_pos hsep, splitWhere_nil, List.singleton_append]
  | cons x xs ih =>
    rw [List.cons_append, splitWhere_cons, splitWhere_cons, ih]
    by_cases hx : cut x
    · rw [if_pos hx, if_pos hx, List.cons_append]
    · obtain ⟨piece, rest, hpieces⟩ := List.exists_cons_of_ne_nil (splitWhere_ne_nil cut xs)
      rw [if_neg hx, if_neg hx, hpieces, List.cons_append, pushFront, pushFront, List.cons_append]

/-- Pieces that are joined are found again, if no piece has a separator. -/
theorem splitWhere_joinWith {pieces : List (List α)} (hne : pieces ≠ [])
    (h : ∀ piece ∈ pieces, ∀ x ∈ piece, cut x = false) (hsep : cut sep) :
    splitWhere cut (joinWith sep pieces) = pieces := by
  induction pieces with
  | nil => exact absurd rfl hne
  | cons piece rest ih =>
    have hpiece := h piece List.mem_cons_self
    cases rest with
    | nil => exact splitWhere_of_forall_not hpiece
    | cons next rest =>
      rw [joinWith, splitWhere_append_cons hpiece hsep,
        ih (List.cons_ne_nil next rest) fun other hother =>
          h other (List.mem_cons_of_mem piece hother)]
      exact List.cons_ne_nil next rest

/-- There is no cut within a piece. -/
theorem not_cut_of_mem_splitWhere {xs piece : List α} {x : α} (hpiece : piece ∈ splitWhere cut xs)
    (hx : x ∈ piece) : cut x = false := by
  induction xs generalizing piece with
  | nil =>
    obtain rfl := List.mem_singleton.mp hpiece
    cases hx
  | cons y ys ih =>
    rw [splitWhere_cons] at hpiece
    by_cases hy : cut y
    · rw [if_pos hy] at hpiece
      rcases List.mem_cons.mp hpiece with rfl | hpiece
      · cases hx
      · exact ih hpiece hx
    · -- The first piece of the rest takes `y` in front, and `y` is no separator.
      rw [if_neg hy] at hpiece
      cases hys : splitWhere cut ys with
      | nil => exact absurd hys (splitWhere_ne_nil cut ys)
      | cons first rest =>
        rw [hys] at hpiece ih
        rw [pushFront] at hpiece
        rcases List.mem_cons.mp hpiece with rfl | hpiece
        · rcases List.mem_cons.mp hx with rfl | hx
          · simpa using hy
          · exact ih List.mem_cons_self hx
        · exact ih (List.mem_cons_of_mem first hpiece) hx

/-- The first piece goes up to the first separator. -/
theorem exists_splitWhere_eq (cut : α → Bool) (xs : List α) :
    ∃ rest, splitWhere cut xs = xs.takeWhile (fun x => !cut x) :: rest := by
  induction xs with
  | nil => exact ⟨[], rfl⟩
  | cons x xs ih =>
    obtain ⟨rest, hrest⟩ := ih
    rw [splitWhere_cons]
    by_cases hx : cut x
    · exact ⟨splitWhere cut xs, by simp [hx]⟩
    · exact ⟨rest, by simp [hx, hrest, pushFront]⟩

/-- A list is cut at a member that its first part does not have. -/
theorem exists_of_append_eq {first second before after : List α} {x : α}
    (h : first ++ second = before ++ x :: after) (hx : x ∉ first) :
    ∃ middle, before = first ++ middle ∧ second = middle ++ x :: after := by
  rcases List.append_eq_append_iff.mp h with ⟨middle, hbefore, hsecond⟩ | ⟨middle, hfirst, hcons⟩
  · exact ⟨middle, hbefore, hsecond⟩
  · cases middle with
    | nil => exact ⟨[], by rw [hfirst, List.append_nil, List.append_nil], hcons.symm⟩
    | cons y middle =>
      obtain ⟨rfl, -⟩ := List.cons.inj hcons
      exact absurd (hfirst ▸ List.mem_append_right before List.mem_cons_self) hx

/-- What is true of the first member stays true with more behind the list, if it is true of what
comes next. -/
theorem forall_head?_append_cons {p : α → Prop} {x : α} {xs : List α} (h : ∀ y ∈ xs.head?, p y)
    (hx : p x) (rest : List α) : ∀ y ∈ (xs ++ x :: rest).head?, p y := by
  cases xs with
  | nil =>
    intro y hy
    obtain rfl : x = y := Option.some_inj.mp hy
    exact hx
  | cons z xs => exact h

end ShellSurvey.Text
