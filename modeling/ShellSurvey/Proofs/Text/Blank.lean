import Mathlib.Data.List.DropRight
import ShellSurvey.Proofs.Text.Split
import ShellSurvey.Text.Blank

/-!
# Blanks around and between words

What `trim` and `words` do, without saying how. `Trimmed text core` says that `core` is `text`
without the blanks at its ends: all that is missing is blank, and `core` neither starts nor ends
with a blank. `Spaced list text` says that `text` is the words of `list` with gaps of blanks around
them, of any width between two words. Each determines its second side: `trim_eq_iff` and
`words_eq_iff`.
-/

namespace ShellSurvey.Text

variable {text core : List Char}

/-! ### Blanks at the ends -/

/-- `core` is what remains of `text` without the blanks at its ends. -/
structure Trimmed (text core : List Char) : Prop where
  exists_blanks : ∃ front back, text = front ++ core ++ back ∧ (∀ c ∈ front, isBlank c = true) ∧
    ∀ c ∈ back, isBlank c = true
  front : ∀ c ∈ core.head?, isBlank c = false
  back : ∀ c ∈ core.getLast?, isBlank c = false

theorem dropWhile_of_head? {p : Char → Bool} (h : ∀ c ∈ text.head?, p c = false) :
    text.dropWhile p = text := by
  cases text with
  | nil => rfl
  | cons c rest => exact List.dropWhile_cons_of_neg (by simp [h c rfl])

/-- Dropping stops where the test fails. -/
theorem head?_dropWhile_eq_false (p : Char → Bool) (text : List Char) :
    ∀ c ∈ (text.dropWhile p).head?, p c = false := by
  intro c hc
  have hnot := List.head?_dropWhile_not p text
  rwa [Option.mem_def.mp hc] at hnot

/-- Blanks in front are dropped. -/
theorem trimFront_append {gap : List Char} (h : ∀ c ∈ gap, isBlank c = true) (rest : List Char) :
    trimFront (gap ++ rest) = trimFront rest :=
  List.dropWhile_append_of_pos h

theorem trimBack_append {gap : List Char} (h : ∀ c ∈ gap, isBlank c = true) (rest : List Char) :
    trimBack (rest ++ gap) = trimBack rest := by
  have hback : ∀ c ∈ gap.reverse, isBlank c = true := fun c hc => h c (List.mem_reverse.mp hc)
  rw [trimBack, List.reverse_append, List.dropWhile_append_of_pos hback, trimBack]

/-- Trimming gives the core of a text. -/
theorem Trimmed.trim_eq (h : Trimmed text core) : trim text = core := by
  obtain ⟨front, back, rfl, hfront, hback⟩ := h.exists_blanks
  have htrimmed : trimBack core = core := by
    rw [trimBack, dropWhile_of_head?, List.reverse_reverse]
    simpa only [List.head?_reverse] using h.back
  have hdropped : trimFront core = core := dropWhile_of_head? h.front
  rw [trim, List.append_assoc, trimFront_append hfront]
  cases core with
  | nil => rw [List.nil_append, trimFront, List.dropWhile_eq_nil_iff.mpr hback]; rfl
  | cons c rest =>
    have hkeep : trimFront (c :: rest ++ back) = c :: rest ++ back :=
      dropWhile_of_head? (by simpa using h.front)
    rw [hkeep, trimBack_append hback, htrimmed]

/-- Every text is a trimmed core between blanks. -/
theorem trimmed_trim (text : List Char) : Trimmed text (trim text) := by
  have hback : trimFront text = trim text ++ (trimFront text).rtakeWhile isBlank :=
    List.rdropWhile_append_rtakeWhile.symm
  refine ⟨⟨text.takeWhile isBlank, (trimFront text).rtakeWhile isBlank, ?_, ?_, ?_⟩, ?_, ?_⟩
  · rw [List.append_assoc, ← hback, trimFront, List.takeWhile_append_dropWhile]
  · intro c hc
    exact List.mem_takeWhile_imp hc
  · intro c hc
    exact List.mem_rtakeWhile_imp hc
  · -- what is cut off at the back leaves the first character, unless nothing remains
    intro c hc
    have hfirst : c ∈ (trimFront text).head? := by
      rw [hback, List.head?_append, Option.mem_def.mp hc]
      rfl
    exact head?_dropWhile_eq_false isBlank text c hfirst
  · intro c hc
    rw [trim, trimBack, List.getLast?_reverse] at hc
    exact head?_dropWhile_eq_false isBlank _ c hc

/-- The function removes the blanks at the ends, and nothing else. -/
theorem trim_eq_iff : trim text = core ↔ Trimmed text core :=
  ⟨fun h => h ▸ trimmed_trim text, Trimmed.trim_eq⟩

/-- Trimming a second time changes nothing. -/
theorem Trimmed.trim_self (h : Trimmed text core) : trim core = core :=
  Trimmed.trim_eq ⟨⟨[], [], by simp⟩, h.front, h.back⟩

/-! ### Words -/

/-- The text is the words of the list, with blanks around them and between any two. -/
inductive Spaced : List (List Char) → List Char → Prop
  | nil {gap : List Char} : (∀ c ∈ gap, isBlank c = true) → Spaced [] gap
  | cons {gap word rest : List Char} {others : List (List Char)} :
      (∀ c ∈ gap, isBlank c = true) → word ≠ [] → (∀ c ∈ word, isBlank c = false) →
      (∀ c ∈ rest.head?, isBlank c = true) → Spaced others rest →
      Spaced (word :: others) (gap ++ (word ++ rest))

theorem words_nil : words [] = [] := rfl

/-- No word goes across a blank, so a text may be cut there. -/
theorem words_append_blank {c : Char} (hc : isBlank c = true) (front rest : List Char) :
    words (front ++ c :: rest) = words front ++ words rest := by
  rw [words, splitWhere_append_sep hc, List.filter_append, words, words]

theorem words_cons_blank {c : Char} (hc : isBlank c = true) (rest : List Char) :
    words (c :: rest) = words rest := by
  rw [← List.nil_append (c :: rest), words_append_blank hc, words_nil, List.nil_append]

theorem words_append_gap {gap : List Char} (h : ∀ c ∈ gap, isBlank c = true) (rest : List Char) :
    words (gap ++ rest) = words rest := by
  induction gap with
  | nil => rfl
  | cons c gap ih =>
    rw [List.cons_append, words_cons_blank (h c List.mem_cons_self),
      ih fun d hd => h d (List.mem_cons_of_mem c hd)]

theorem words_of_forall_not {word : List Char} (hne : word ≠ [])
    (h : ∀ c ∈ word, isBlank c = false) : words word = [word] := by
  rw [words, splitWhere_of_forall_not h]
  exact List.filter_cons_of_pos (by simp [hne])

/-- A word ends at the next blank. -/
theorem words_append_word {word rest : List Char} (hne : word ≠ [])
    (h : ∀ c ∈ word, isBlank c = false) (hrest : ∀ c ∈ rest.head?, isBlank c = true) :
    words (word ++ rest) = word :: words rest := by
  cases rest with
  | nil => rw [List.append_nil, words_of_forall_not hne h, words_nil]
  | cons c rest =>
    have hc : isBlank c = true := hrest c rfl
    rw [words_append_blank hc, words_of_forall_not hne h, List.singleton_append,
      words_cons_blank hc]

/-- Words with blanks in between are read one by one. -/
theorem Spaced.words_eq {list : List (List Char)} (h : Spaced list text) : words text = list := by
  induction h with
  | @nil gap hgap => rw [← List.append_nil gap, words_append_gap hgap, words_nil]
  | cons hgap hne hword hrest _ ih =>
    rw [words_append_gap hgap, words_append_word hne hword hrest, ih]

/-- A text is blank, or it has a first word, with blanks before it and a blank or nothing behind
it. -/
theorem exists_first_word (text : List Char) :
    (∀ c ∈ text, isBlank c = true) ∨ ∃ gap word rest, text = gap ++ (word ++ rest) ∧
      (∀ c ∈ gap, isBlank c = true) ∧ word ≠ [] ∧ (∀ c ∈ word, isBlank c = false) ∧
      ∀ c ∈ rest.head?, isBlank c = true := by
  cases hbehind : text.dropWhile isBlank with
  | nil => exact .inl (List.dropWhile_eq_nil_iff.mp hbehind)
  | cons first behind =>
    have hfirst : isBlank first = false :=
      head?_dropWhile_eq_false isBlank text first (by rw [hbehind]; rfl)
    refine .inr ⟨text.takeWhile isBlank, (first :: behind).takeWhile (fun c => !isBlank c),
      (first :: behind).dropWhile (fun c => !isBlank c), ?_, ?_, ?_, ?_, ?_⟩
    · rw [List.takeWhile_append_dropWhile, ← hbehind, List.takeWhile_append_dropWhile]
    · intro c hc
      exact List.mem_takeWhile_imp hc
    · simp [hfirst]
    · intro c hc
      simpa using List.mem_takeWhile_imp hc
    · intro c hc
      simpa using head?_dropWhile_eq_false _ _ c hc

/-- Every text consists of its words with blanks in between. -/
theorem spaced_words (text : List Char) : Spaced (words text) text := by
  -- on the length: what stands behind the first word is shorter
  induction hlength : text.length using Nat.strongRecOn generalizing text with
  | _ n ih =>
    rcases exists_first_word text with hblank | ⟨gap, word, rest, rfl, hgap, hne, hword, hrest⟩
    · rw [← List.append_nil text, words_append_gap hblank, List.append_nil]
      exact .nil hblank
    · have hpos := List.length_pos_of_ne_nil hne
      have hlt : rest.length < n := by
        simp only [List.length_append] at hlength
        omega
      rw [words_append_gap hgap, words_append_word hne hword hrest]
      exact .cons hgap hne hword hrest (ih rest.length hlt rest rfl)

/-- The function finds the words of a text, and they are the only ones that it is made of. -/
theorem words_eq_iff {list : List (List Char)} : words text = list ↔ Spaced list text :=
  ⟨fun h => h ▸ spaced_words text, Spaced.words_eq⟩

end ShellSurvey.Text
