import ShellSurvey.Proofs.Survey.Imports

/-!
# Imports by groups of matches

A table of imports is made from matches in any order and with any captures. The matches fall into
groups: one for each byte at which a statement starts, where a match without a statement counts as
one that starts with its argument. A match of another command is in no group.

The table has one entry per group, in the order in which the groups came up, and the match of an
entry is the one whose argument starts first (`mem_importTable_iff`). So the order of the matches
tells which group comes first, but where the arguments of a group start at different bytes it has
no say in which match is taken (`mem_importTable_of_perm`).
-/

namespace ShellSurvey.Survey

variable {found : List Captures}

/-! ### Groups -/

/-- The byte at which the statement of a match starts, if the match is in a group. -/
def statementStart? (captures : Captures) : Option Nat :=
  if isSourceMatch captures then (importStatement? captures).map (·.site.span.startByte) else none

/-- The matches whose statements start at a byte. -/
def groupAt (found : List Captures) (start : Nat) : List Captures :=
  found.filter fun captures => statementStart? captures = some start

theorem isSourceMatch_iff {captures : Captures} :
    isSourceMatch captures ↔
      ∀ word, captures.get? "_cmd" = some word → word.text = "source" ∨ word.text = "." := by
  rw [isSourceMatch]
  cases captures.get? "_cmd" with
  | none => simp
  | some word => simp

theorem importStatement?_eq (captures : Captures) :
    importStatement? captures = (captures.get? "import").or (captures.get? "import.from") := by
  rw [importStatement?, Captures.first?]
  cases hstatement : captures.get? "import" with
  | some statement => simp [hstatement]
  | none =>
    cases hargument : captures.get? "import.from" with
    | some argument => simp [hstatement, hargument]
    | none => simp [hstatement, hargument]

/-- A match belongs to the statement at which its command starts, or its path if the command is not
captured. -/
theorem statementStart?_eq_some_iff {captures : Captures} {start : Nat} :
    statementStart? captures = some start ↔
      (∀ word, captures.get? "_cmd" = some word → word.text = "source" ∨ word.text = ".") ∧
        ((captures.get? "import").or (captures.get? "import.from")).map
          (·.site.span.startByte) = some start := by
  rw [statementStart?, ← importStatement?_eq, ← isSourceMatch_iff]
  split_ifs with hsource
  · simp [hsource]
  · simp [hsource]

/-- A match is entered under the start of its statement. -/
theorem importEntry?_eq (captures : Captures) :
    importEntry? captures = (statementStart? captures).map fun start => (start, captures) := by
  rw [statementStart?, importEntry?]
  split_ifs with hsource
  · rw [Option.map_map]
    rfl
  · rfl

theorem map_fst_importEntries (found : List Captures) :
    (found.filterMap importEntry?).map (·.1) = found.filterMap statementStart? := by
  rw [List.map_filterMap]
  refine List.filterMap_congr fun captures _ => ?_
  rw [importEntry?_eq, Option.map_map]
  exact Option.map_id'

/-- The entries of a statement are the matches of its group. -/
theorem filter_importEntries (found : List Captures) (start : Nat) :
    (found.filterMap importEntry?).filter (·.1 = start) =
      (groupAt found start).map fun captures => (start, captures) := by
  rw [groupAt, List.filter_filterMap, ← List.filterMap_eq_map', List.filterMap_filter]
  refine List.filterMap_congr fun captures _ => ?_
  rw [importEntry?_eq]
  cases statementStart? captures with
  | none => simp
  | some other => by_cases h : other = start <;> simp [h]

/-! ### The table -/

/-- The groups come in the order of their first matches. -/
theorem map_fst_importTable (found : List Captures) :
    (importTable found).map (·.1) = (found.filterMap statementStart?).eraseDups := by
  rw [importTable_eq, Table.map_key_ofList fst_earliest, map_fst_importEntries]

/-- The match of a group is the one whose argument starts first, of several the earliest. -/
theorem mem_importTable_iff {entry : Nat × Captures} :
    entry ∈ importTable found ↔
      Table.FirstLeast argumentStart (groupAt found entry.1) entry.2 := by
  have hinjective : Function.Injective fun captures : Captures => (entry.1, captures) :=
    fun _ _ h => (Prod.mk.inj h).2
  rw [importTable_eq, Table.mem_ofList fst_earliest, filter_importEntries, earliest_eq,
    Table.summary?_lighter_iff]
  exact Table.firstLeast_map_iff hinjective

/-- The order of the matches does not matter, as long as no two arguments of a statement start at
the same byte. -/
theorem mem_importTable_of_perm {other : List Captures} (h : other.Perm found) {start : Nat}
    (hstarts : ((groupAt found start).map argumentStart).Nodup) (captures : Captures) :
    (start, captures) ∈ importTable other ↔ (start, captures) ∈ importTable found := by
  have hgroup : (groupAt other start).Perm (groupAt found start) := h.filter _
  have hother : ((groupAt other start).map argumentStart).Nodup :=
    (hgroup.map argumentStart).nodup_iff.mpr hstarts
  -- Without ties the first of the least matches is the least one, wherever it stands.
  rw [mem_importTable_iff, mem_importTable_iff, Table.firstLeast_iff_of_nodup hother,
    Table.firstLeast_iff_of_nodup hstarts, hgroup.mem_iff]
  simp only [hgroup.mem_iff]

/-! ### The imports of any matches -/

/-- **Every group of matches gives one import**, made from the match of the group whose argument
starts first, and the imports come in the order in which the groups came up. Where the arguments of
a group start at different bytes, the match is the same in whatever order the matches come. -/
theorem imports_of_groups {grammar : Grammar} {read : Captures → Import}
    (hread : grammar.transforms.imported = some read) (settings : ExtractionSettings)
    (script : Script) (errorCount : Nat) (found : Found) :
    (∃ facts, readFacts grammar settings script errorCount found = .ok facts ∧
      facts.imports = keptImports settings ((importTable (found .imports)).map fun entry =>
        { read entry.2 with location := { (read entry.2).location with file := script.file } })) ∧
    (importTable (found .imports)).map (·.1) =
      ((found .imports).filterMap statementStart?).eraseDups ∧
    (∀ captures start, statementStart? captures = some start ↔
      (∀ word, captures.get? "_cmd" = some word → word.text = "source" ∨ word.text = ".") ∧
        ((captures.get? "import").or (captures.get? "import.from")).map
          (·.site.span.startByte) = some start) ∧
    (∀ entry ∈ importTable (found .imports),
      Table.FirstLeast argumentStart (groupAt (found .imports) entry.1) entry.2) ∧
    ∀ other, other.Perm (found .imports) → ∀ start,
      ((groupAt (found .imports) start).map argumentStart).Nodup → ∀ captures,
        (start, captures) ∈ importTable other ↔
          (start, captures) ∈ importTable (found .imports) := by
  refine ⟨⟨_, readFacts_eq grammar settings script errorCount found, ?_⟩,
    map_fst_importTable _, fun _ _ => statementStart?_eq_some_iff,
    fun _ => mem_importTable_iff.mp, fun other hperm start hstarts captures =>
      mem_importTable_of_perm hperm hstarts captures⟩
  simp only [assemble, factsOf, allImports, hread, imports]

/-- A script with a statement that reads a file. -/
def groupedScript : Script :=
  Script.ofText "t.sh" "echo d;c;. a b".toList

/-- A captured part of the script. -/
def groupedPart (start stop : Nat) : Capture :=
  Query.capture groupedScript.bytes none (Node.onFirstLine "word" true none start stop [])

/-- The match of the first argument of the statement. -/
def firstMatch : Captures :=
  [("import", groupedPart 9 14), ("_cmd", groupedPart 9 10), ("import.from", groupedPart 11 12)]

/-- Matches of two groups: of a later argument, of another command, without a statement, and of the
first argument. -/
def groupedMatches : List Captures :=
  [[("import", groupedPart 9 14), ("_cmd", groupedPart 9 10), ("import.from", groupedPart 13 14)],
    [("import", groupedPart 0 6), ("_cmd", groupedPart 0 4), ("import.from", groupedPart 5 6)],
    [("import.from", groupedPart 7 8)], firstMatch]

/-- The group of the statement comes first, with the match that comes last. -/
theorem imports_of_grouped :
    Grammar.standard.transforms.imported = some (fun captures => Import.ofCaptures captures none) ∧
      groupedMatches.reverse.Perm groupedMatches ∧
      ((groupAt groupedMatches 9).map argumentStart).Nodup ∧
      (∃ facts, readFacts Grammar.standard {} groupedScript 0
          (Found.none.put .imports groupedMatches) = .ok facts ∧
        facts.imports.map (·.raw) = ["a", "c"]) ∧
      (9, firstMatch) ∈ importTable groupedMatches.reverse := by
  have hread : Grammar.standard.transforms.imported =
      some (fun captures => Import.ofCaptures captures none) := rfl
  have hperm : groupedMatches.reverse.Perm groupedMatches := groupedMatches.reverse_perm
  have hstarts : ((groupAt groupedMatches 9).map argumentStart).Nodup := by decide +kernel
  obtain ⟨⟨facts, hfacts, himports⟩, -, -, -, hother⟩ :=
    imports_of_groups hread {} groupedScript 0 (Found.none.put .imports groupedMatches)
  refine ⟨hread, hperm, hstarts, ⟨facts, hfacts, ?_⟩, (hother _ hperm 9 hstarts firstMatch).mpr ?_⟩
  · rw [himports]
    decide +kernel
  · decide +kernel

end ShellSurvey.Survey
