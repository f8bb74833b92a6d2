import Mathlib.Data.List.Basic
import ShellSurvey.Proofs.Text.Blank
import ShellSurvey.Text.LineEnding

/-!
# Texts with unified line endings

How `unify` goes through a text. Only a carriage return is ever changed, and only together with a
line feed behind it. So a text is unified piece by piece wherever it is cut in front of something
other than a line feed, and what has no carriage return stays as it is. Reading once from left to
right gives the same text (`unify_eq_unifyOnce`).

A body in its normal form is read once from left to right, every line ending as one line feed, and
then loses the blanks at its ends. Neither step undoes the other: no carriage return is left for a
second reading, and trimming brings none back, so the normal form of a normal form is itself.
-/

namespace ShellSurvey.Text

@[simp] theorem unify_nil : unify [] = [] := rfl

@[simp] theorem unify_pair (rest : List Char) :
    unify ('\r' :: '\n' :: rest) = '\n' :: unify rest := rfl

theorem unify_cons {c : Char} (hc : c ≠ '\r') (rest : List Char) :
    unify (c :: rest) = c :: unify rest := by
  have hpairs : joinPairs (c :: rest) = c :: joinPairs rest := by
    rw [joinPairs]
    rintro more rfl
    exact absurd rfl hc
  rw [unify, hpairs, feedReturns, List.map_cons, if_neg hc]
  rfl

/-- A carriage return of its own becomes a line break. -/
theorem unify_return {rest : List Char} (h : rest.head? ≠ some '\n') :
    unify ('\r' :: rest) = '\n' :: unify rest := by
  have hpairs : joinPairs ('\r' :: rest) = '\r' :: joinPairs rest := by
    rw [joinPairs]
    rintro more - rfl
    exact h rfl
  rw [unify, hpairs]
  rfl

/-- A carriage return becomes a line feed, and takes one behind it along. -/
theorem exists_unify_return (rest : List Char) :
    ∃ behind, unify ('\r' :: rest) = '\n' :: unify behind ∧
      (rest = behind ∨ rest = '\n' :: behind) := by
  by_cases h : rest.head? = some '\n'
  · obtain ⟨behind, rfl⟩ := List.head?_eq_some_iff.mp h
    exact ⟨behind, unify_pair behind, .inr rfl⟩
  · exact ⟨rest, unify_return h, .inl rfl⟩

/-- What has no carriage return stays as it is. -/
theorem unify_append {front : List Char} (h : '\r' ∉ front) (rest : List Char) :
    unify (front ++ rest) = front ++ unify rest := by
  induction front with
  | nil => rfl
  | cons c front ih =>
    have hc : c ≠ '\r' := fun heq => h (heq ▸ List.mem_cons_self)
    rw [List.cons_append, unify_cons hc, ih fun hmem => h (List.mem_cons_of_mem c hmem),
      List.cons_append]

theorem unify_of_not_mem {text : List Char} (h : '\r' ∉ text) : unify text = text := by
  simpa using unify_append h []

/-- A text may be cut at a character that is no part of a line ending. -/
theorem unify_append_cons {c : Char} (hreturn : c ≠ '\r') (hfeed : c ≠ '\n')
    (front rest : List Char) : unify (front ++ c :: rest) = unify front ++ c :: unify rest := by
  fun_induction joinPairs front with
  | case1 front ih => simpa using ih
  | case2 d front hpair ih =>
    by_cases hd : d = '\r'
    · subst hd
      have hfront : front.head? ≠ some '\n' := by
        intro hhead
        obtain ⟨more, rfl⟩ := List.head?_eq_some_iff.mp hhead
        exact hpair more rfl rfl
      have hwhole : (front ++ c :: rest).head? ≠ some '\n' := by
        cases front with
        | nil => simpa using hfeed
        | cons e front => exact hfront
      rw [List.cons_append, unify_return hwhole, unify_return hfront, ih, List.cons_append]
    · rw [List.cons_append, unify_cons hd, unify_cons hd, ih, List.cons_append]
  | case3 => rw [List.nil_append, unify_cons hreturn, unify_nil, List.nil_append]

/-- The first character is changed only if it is a carriage return. -/
theorem head?_unify (text : List Char) :
    (unify text).head? = text.head?.map fun c => if c = '\r' then '\n' else c := by
  cases text with
  | nil => rfl
  | cons c rest =>
    by_cases hc : c = '\r'
    · subst hc
      obtain ⟨behind, hunify, -⟩ := exists_unify_return rest
      rw [hunify]
      rfl
    · simp [unify_cons hc, hc]

/-- Two passes over a text give what one reading from left to right gives. -/
theorem unify_eq_unifyOnce (text : List Char) : unify text = unifyOnce text := by
  fun_induction unifyOnce text with
  | case1 rest ih => rw [unify_pair, ih]
  | case2 rest hpair ih =>
    have hrest : rest.head? ≠ some '\n' := by
      intro hhead
      obtain ⟨more, rfl⟩ := List.head?_eq_some_iff.mp hhead
      exact hpair more rfl
    rw [unify_return hrest, ih]
  | case3 c rest hpair hreturn ih => rw [unify_cons hreturn, ih]
  | case4 => rfl

/-- No carriage return is left. -/
theorem return_notMem_unify (text : List Char) : '\r' ∉ unify text := by
  intro hmem
  obtain ⟨c, -, hc⟩ := List.mem_map.mp hmem
  split_ifs at hc with hreturn
  · cases hc
  · exact hreturn hc

@[simp] theorem unify_eq_nil_iff {text : List Char} : unify text = [] ↔ text = [] := by
  rw [← List.head?_eq_none_iff, head?_unify, Option.map_eq_none_iff, List.head?_eq_none_iff]

end ShellSurvey.Text

/-! ### Normal bodies -/

namespace ShellSurvey.Script

variable {body core : List Char}

/-- A normal body is the text with unified line endings, without the blanks at its ends. -/
theorem trimmed_normalBody (body : List Char) :
    Text.Trimmed (Text.unifyOnce body) (normalBody body) := by
  rw [normalBody, Text.unify_eq_unifyOnce]
  exact Text.trimmed_trim (Text.unifyOnce body)

/-- Nothing else is the text with unified line endings without the blanks at its ends. -/
theorem normalBody_eq_iff : normalBody body = core ↔ Text.Trimmed (Text.unifyOnce body) core := by
  rw [normalBody, Text.unify_eq_unifyOnce]
  exact Text.trim_eq_iff

theorem return_notMem_normalBody (body : List Char) : '\r' ∉ normalBody body := by
  obtain ⟨front, back, hreading, -, -⟩ := (trimmed_normalBody body).exists_blanks
  have hreturn := Text.return_notMem_unify body
  rw [Text.unify_eq_unifyOnce, hreading] at hreturn
  intro hmem
  exact hreturn (List.mem_append_left back (List.mem_append_right front hmem))

/-- Normalizing a second time changes nothing. -/
theorem normalBody_normalBody (body : List Char) :
    normalBody (normalBody body) = normalBody body := by
  have hunify : Text.unify (normalBody body) = normalBody body :=
    Text.unify_of_not_mem (return_notMem_normalBody body)
  have htrim : Text.trim (normalBody body) = normalBody body := (trimmed_normalBody body).trim_self
  rw [normalBody.eq_1 (normalBody body), hunify, htrim]

/-- **The normal form of a body is one reading of it without the blanks at its ends.** So it has no
carriage return and no blank at either end, bodies that are read alike have one normal form, and a
normal form is its own. -/
theorem normalBody_of_reading (body : List Char) :
    (∀ core, normalBody body = core ↔ Text.Trimmed (Text.unifyOnce body) core) ∧
      '\r' ∉ normalBody body ∧
      (∀ c ∈ (normalBody body).head?, Text.isBlank c = false) ∧
      (∀ c ∈ (normalBody body).getLast?, Text.isBlank c = false) ∧
      (∀ other, Text.unifyOnce other = Text.unifyOnce body → normalBody other = normalBody body) ∧
      normalBody (normalBody body) = normalBody body := by
  have htrimmed := trimmed_normalBody body
  refine ⟨fun core => normalBody_eq_iff, return_notMem_normalBody body, htrimmed.front,
    htrimmed.back, fun other hother => ?_, normalBody_normalBody body⟩
  rw [normalBody_eq_iff, hother]
  exact htrimmed

/-- A pair and a lone carriage return are read alike, and so are their runs. -/
theorem normalBody_of_reading_mixed :
    normalBody "\n\t\x7b a;\n\r\nb; \x7d\r\n".toList =
        normalBody "\r\n\t\x7b a;\r\r\nb; \x7d\r".toList ∧
      normalBody "\r\n\t\x7b a;\r\r\nb; \x7d\r".toList = "\x7b a;\n\nb; \x7d".toList :=
  ⟨(normalBody_of_reading "\r\n\t\x7b a;\r\r\nb; \x7d\r".toList).2.2.2.2.1 _ (by decide),
    by decide⟩

end ShellSurvey.Script
