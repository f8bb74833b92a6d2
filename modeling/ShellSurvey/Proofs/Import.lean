import ShellSurvey.Import
import ShellSurvey.Proofs.Text.Unquote

/-!
# The path of an import

What the record of an import says about the argument that it is made of.

* `Expands` — a text that only running the script would tell, said of the argument as written;
* `Resolves` — a record that never guesses and loses nothing: the argument as written can be told
  from the path, one layer of quotes aside, or else the path is left open;
* `StandsAt` — the location of a record.

One layer of quotes is taken off before the path is looked at. That changes no verdict, since a
quote is neither a `$` nor a grave accent (`expands_iff_of_unquoted`). An empty path stands for one
that is left open, so an import of an empty text counts as unresolved as well.
-/

namespace ShellSurvey.Import

/-! ### Expansions -/

/-- A text holds an expansion, or a command between two grave accents. -/
def Expands (text : List Char) : Prop :=
  '$' ∈ text ∨ 2 ≤ text.count '\x60'

/-- A path is dynamic just if something in it is expanded. -/
theorem isDynamicPath_iff {path : List Char} : isDynamicPath path ↔ Expands path := by
  rw [isDynamicPath, Bool.or_eq_true, List.contains_iff_mem, decide_eq_true_iff, Expands]

/-- A text that holds another character at both ends is the same to whoever counts a character. -/
theorem count_quoted {q c : Char} (h : q ≠ c) (inner : List Char) :
    (q :: (inner ++ [q])).count c = inner.count c := by
  rw [List.count_cons_of_ne h, List.count_append, List.count_singleton, if_neg (by simpa using h),
    Nat.add_zero]

/-- Quotes around a text neither add an expansion nor take one away. -/
theorem expands_quoted {q : Char} (h : Text.IsQuote q) (inner : List Char) :
    Expands (q :: (inner ++ [q])) ↔ Expands inner := by
  have hdollar : q ≠ '$' := by
    rintro rfl
    exact absurd h (by simp [Text.IsQuote])
  have hgrave : q ≠ '\x60' := by
    rintro rfl
    exact absurd h (by simp [Text.IsQuote])
  rw [Expands, Expands, ← List.one_le_count_iff, count_quoted hdollar, List.one_le_count_iff,
    count_quoted hgrave]

/-- Quotes around a text do not change whether it expands. -/
theorem expands_iff_of_unquoted {text inner : List Char} (h : Text.Unquoted text inner) :
    Expands inner ↔ Expands text := by
  cases h with
  | quoted inner hq => exact (expands_quoted hq inner).symm
  | bare => exact Iff.rfl

/-! ### Records -/

/-- What a record says of an argument that is written as `raw`. -/
structure Resolves (raw : List Char) (record : Import) : Prop where
  /-- The argument is kept as it is written. -/
  written : record.raw.toList = raw
  /-- The record is dynamic if the argument, quotes and all, expands. -/
  dynamic_iff : record.isDynamic ↔ Expands raw
  /-- A dynamic record leaves its path open. -/
  unknown : record.isDynamic → record.name = "" ∧ record.fromPath = ""
  /-- Any other record has the argument without one layer of quotes for its name and path. -/
  known : record.isDynamic = false →
    record.name = record.fromPath ∧ Text.Unquoted raw record.fromPath.toList
  /-- Nothing is left to be expanded in a path that is resolved. -/
  literal : record.isResolved →
    '$' ∉ record.fromPath.toList ∧ record.fromPath.toList.count '\x60' ≤ 1
  /-- A path is left open if the record is dynamic, or if there is nothing between the quotes. -/
  unresolved_iff : record.isResolved = false ↔ record.isDynamic ∨ Text.Unquoted raw []

/-- Where a record stands: at the statement if that is captured, else at its argument, else at the
place given, and nowhere if there is none. -/
inductive StandsAt (captures : Captures) (place : Option Span) : Location → Prop
  | statement {capture : Capture} : captures.get? "import" = some capture →
      StandsAt captures place (.ofSpan "" capture.site.span)
  | argument {capture : Capture} : captures.get? "import" = none →
      captures.get? "import.from" = some capture →
      StandsAt captures place (.ofSpan "" capture.site.span)
  | given {span : Span} : captures.get? "import" = none → captures.get? "import.from" = none →
      place = some span → StandsAt captures place (.ofSpan "" span)
  | nowhere : captures.get? "import" = none → captures.get? "import.from" = none →
      place = none → StandsAt captures place ⟨"", 0, 0, 0, 0⟩

/-- The location of a record is the one that `StandsAt` tells. -/
theorem location_ofCaptures (captures : Captures) (place : Option Span) :
    StandsAt captures place (ofCaptures captures place).location := by
  have hlocation : (ofCaptures captures place).location = Location.ofSpan? ""
      (((captures.first? ["import", "import.from"]).map (·.site.span)).or place) := rfl
  rw [hlocation, Captures.first?]
  cases hstatement : captures.get? "import" with
  | some capture => simpa [hstatement] using .statement hstatement
  | none =>
    cases hargument : captures.get? "import.from" with
    | some capture => simpa [hstatement, hargument] using .argument hstatement hargument
    | none =>
      cases place with
      | some span => simpa [hstatement, hargument] using .given hstatement hargument rfl
      | none => simpa [hstatement, hargument] using .nowhere hstatement hargument rfl

/-- Only an empty path is not resolved. -/
theorem isResolved_eq_false_iff {record : Import} :
    record.isResolved = false ↔ record.fromPath.toList = [] := by
  rw [isResolved, Bool.not_eq_false', String.isEmpty_iff, String.toList_eq_nil_iff]

/-- A record resolves its argument if it goes by the argument without one layer of quotes: that text
is its name and path, unless it expands. -/
theorem resolves_of_unquote {raw : List Char} {record : Import} (hraw : record.raw.toList = raw)
    (hdynamic : record.isDynamic = isDynamicPath (Text.unquote raw))
    (hname : record.name = record.fromPath)
    (hpath : record.fromPath.toList = if record.isDynamic then [] else Text.unquote raw) :
    Resolves raw record := by
  have hunquoted : Text.Unquoted raw (Text.unquote raw) := Text.unquote_eq_iff.mp rfl
  have hiff : record.isDynamic ↔ Expands (Text.unquote raw) := by
    rw [hdynamic, isDynamicPath_iff]
  refine
    { written := hraw
      dynamic_iff := hiff.trans (expands_iff_of_unquoted hunquoted)
      unknown := fun h => ?_
      known := fun h => ?_
      literal := fun _ => ?_
      unresolved_iff := ?_ }
  · rw [if_pos h] at hpath
    have hempty : record.fromPath = "" := String.toList_eq_nil_iff.mp hpath
    exact ⟨hname.trans hempty, hempty⟩
  · rw [h, if_neg Bool.false_ne_true] at hpath
    exact ⟨hname, hpath ▸ hunquoted⟩
  · rw [hpath]
    split_ifs with h
    · simp
    · rw [hiff, Expands, not_or, Nat.not_le] at h
      exact ⟨h.1, Nat.le_of_lt_succ h.2⟩
  · rw [isResolved_eq_false_iff, hpath, ← Text.unquote_eq_iff]
    split_ifs with h
    · simp [h]
    · simp [h]

/-- **Imports are resolved without guessing, and no text is lost.** The argument is the text that is
captured for it, or empty if none is. -/
theorem ofCaptures_resolves (captures : Captures) (place : Option Span) :
    Resolves (((captures.get? "import.from").map (·.text.toList)).getD [])
        (ofCaptures captures place) ∧
      StandsAt captures place (ofCaptures captures place).location := by
  have hraw : (captures.textD "import.from" "").toList =
      ((captures.get? "import.from").map (·.text.toList)).getD [] := by
    rw [Captures.textD]
    cases captures.get? "import.from" with
    | none => rfl
    | some capture => rfl
  refine ⟨?_, location_ofCaptures captures place⟩
  rw [← hraw]
  refine resolves_of_unquote rfl rfl rfl ?_
  rw [ofCaptures]
  split_ifs with hdynamic
  · rfl
  · exact String.toList_ofList

end ShellSurvey.Import
