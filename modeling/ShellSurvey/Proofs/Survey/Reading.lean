import Mathlib.Data.List.Basic
import ShellSurvey.Survey.Reading

/-!
# No lookup finds nothing

Reading the matches of a script makes two lookups that could find nothing: the part that places a
function, and the row of a comment. Both are guarded. A function without a name is passed over
before its place is sought, and a name that is not empty is a label of the match; a row is sought
only if the source has so many. So the facts are read whatever the matches hold
(`readFacts_eq`), matches of other queries than the standard ones included.
-/

namespace ShellSurvey.Survey

variable {α : Type} {captures : Captures}

/-! ### Rows -/

/-- A row is there just if it is counted. -/
theorem isSome_rowFrom?_iff (row : Nat) (bytes : List UInt8) :
    (rowFrom? row bytes).isSome ↔ row < rowCount bytes := by
  fun_induction rowFrom? row bytes with
  | case1 bytes => simp [rowCount]
  | case2 row => simp [rowCount]
  | case3 row rest ih =>
    rw [ih, rowCount, rowCount, List.count_cons_self]
    omega
  | case4 row byte rest hbyte ih => rw [ih, rowCount, rowCount, List.count_cons_of_ne hbyte]

theorem readAlone_eq (bytes : List UInt8) (point : Point) :
    readAlone bytes point = .ok (standsAlone bytes point) := by
  rw [readAlone, standsAlone, lookUpRow]
  have hrow := isSome_rowFrom?_iff point.row bytes
  cases hfrom : rowFrom? point.row bytes with
  | some rest =>
    rw [if_pos (hrow.mp (by rw [hfrom]; rfl))]
    rfl
  | none =>
    refine if_neg fun hlt => ?_
    have hsome := hrow.mpr hlt
    rw [hfrom] at hsome
    cases hsome

/-! ### Matches -/

/-- If no record fails, then all of them together do not. -/
theorem readEach_eq {read : Captures → Except Absent (Option α)} {record : Captures → Option α}
    (h : ∀ captures, read captures = .ok (record captures)) (found : List Captures) :
    readEach read found = .ok (found.filterMap record) := by
  induction found with
  | nil => rfl
  | cons captures rest ih =>
    rw [readEach, h, List.filterMap_cons]
    simp only [ih, Except.map]
    cases record captures with
    | none => rfl
    | some value => rfl

/-- Reading a remark does not fail. -/
theorem readRemark_eq (bytes : List UInt8) (file : String) (read : List Char → List Char)
    (captures : Captures) :
    readRemark bytes file read captures = .ok (remark? bytes file read captures) := by
  rw [readRemark, remark?]
  cases captures.get? "doc.content" with
  | none => rfl
  | some capture =>
    simp only [readAlone_eq]
    split_ifs
    · rfl
    · rfl

theorem readRemarks_eq (transforms : Transforms) (script : Script) (found : Found) :
    readRemarks transforms script found = .ok (allRemarks transforms script found) := by
  rw [readRemarks, allRemarks]
  cases transforms.comment with
  | none => rfl
  | some read => exact readEach_eq (readRemark_eq script.bytes script.file read) _

/-- A label whose text is not empty is captured. -/
theorem exists_get?_of_textD {label : String} (h : ¬(captures.textD label "").isEmpty) :
    ∃ capture, captures.get? label = some capture := by
  rw [Captures.textD] at h
  cases hget : captures.get? label with
  | none => simp [hget] at h
  | some capture => exact ⟨capture, rfl⟩

/-- A function with a name has something to be located at. -/
theorem readAnchor_eq (h : ¬(captures.textD "function.name" "").isEmpty) :
    ∃ anchor, readAnchor captures = .ok anchor ∧
      captures.first? ["function", "function.name"] = some anchor := by
  obtain ⟨name, hname⟩ := exists_get?_of_textD h
  rw [readAnchor, lookUp, Captures.first?]
  cases hwhole : captures.get? "function" with
  | some whole => exact ⟨whole, rfl, by simp [hwhole]⟩
  | none => exact ⟨name, by simp [hname], by simp [hwhole, hname]⟩

/-- Reading a function does not fail. -/
theorem readFunction_eq (transforms : Transforms) (settings : ExtractionSettings)
    (script : Script) (remarks : List Remark) (captures : Captures) :
    readFunction transforms settings script remarks captures =
      .ok (function? transforms settings script remarks captures) := by
  rw [readFunction, function?]
  split_ifs with hname
  · rfl
  · obtain ⟨anchor, hread, hfirst⟩ := readAnchor_eq hname
    rw [hread, hfirst]
    rfl

/-- **Every lookup finds something**: whatever the matches hold, the facts are read. -/
theorem readFacts_eq (grammar : Grammar) (settings : ExtractionSettings) (script : Script)
    (errorCount : Nat) (found : Found) :
    readFacts grammar settings script errorCount found =
      .ok (assemble grammar settings script errorCount found) := by
  rw [readFacts, readRemarks_eq, assemble]
  simp only [readEach_eq (readFunction_eq grammar.transforms settings script _), Except.map]

end ShellSurvey.Survey
