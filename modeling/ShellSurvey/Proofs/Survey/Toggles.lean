import ShellSurvey.Proofs.Survey.Session
import ShellSurvey.Proofs.Tree.Places

/-!
# Settings that leave things out

Three settings leave parts of the facts out: string literals, imports of unknown files, and the
documentation of functions. Each takes away its own part and nothing else (`Facts.Reduced`), and
none of them silences a warning: whatever is left out is warned of all the same
(`facts_of_settings`).

The facts are compared once as functions of the matches (`reduced_assemble`). The matches do not
depend on the settings but for those of strings, which no other part of the facts is made of.
-/

namespace ShellSurvey

/-- Nothing is left out. -/
structure ExtractionSettings.Full (settings : ExtractionSettings) : Prop where
  strings : settings.includeStrings = true
  dynamicImports : settings.includeDynamicImports = true
  docComments : settings.attachDocComments = true

/-- The function without its documentation. -/
def Function.undocumented (function : Function) : Function :=
  { function with doc := none }

/-- The facts are all facts but for what the settings leave out. -/
structure Facts.Reduced (settings : ExtractionSettings) (all facts : Facts) : Prop where
  file : facts.file = all.file
  grammar : facts.grammar = all.grammar
  errorCount : facts.errorCount = all.errorCount
  exports : facts.exports = all.exports
  docComments : facts.docComments = all.docComments
  strings : facts.strings = if settings.includeStrings then all.strings else []
  /-- The imports of known files stay, in their order. -/
  imports : facts.imports =
    if settings.includeDynamicImports then all.imports
    else all.imports.filter fun record => !record.isDynamic
  functions : facts.functions =
    if settings.attachDocComments then all.functions
    else all.functions.map Function.undocumented

namespace Survey

variable {grammar : Grammar} {settings full : ExtractionSettings} {session : Session}

/-! ### Facts -/

/-- The full settings keep all imports. -/
theorem keptImports_full (h : full.Full) (records : List Import) :
    keptImports full records = records := by
  simp [keptImports, h.dynamicImports]

/-- The settings for documentation only remove it. -/
theorem function?_settings (h : full.Full) (transforms : Transforms) (script : Script)
    (remarks : List Remark) (captures : Captures) :
    function? transforms settings script remarks captures =
      if settings.attachDocComments then function? transforms full script remarks captures
      else (function? transforms full script remarks captures).map Function.undocumented := by
  rw [function?, function?]
  cases hattach : settings.attachDocComments with
  | true =>
    have hsame : functionAt transforms settings script remarks captures =
        functionAt transforms full script remarks captures := by
      funext anchor
      simp only [functionAt, hattach, h.docComments]
    rw [hsame]
    rfl
  | false =>
    -- The documentation is the last thing that is put into a function.
    have hsame : functionAt transforms settings script remarks captures =
        Function.undocumented ∘ functionAt transforms full script remarks captures := by
      funext anchor
      simp only [functionAt, hattach, Function.comp_apply, Function.undocumented]
      rfl
    rw [hsame, if_neg Bool.false_ne_true]
    split_ifs with hname
    · rfl
    · rw [Option.map_map]

/-- Leaving things out is left to the last: the facts are made in full and then reduced. -/
theorem reduced_assemble (h : full.Full) (grammar : Grammar) (settings : ExtractionSettings)
    (script : Script) (errorCount : Nat) (found : Found) :
    Facts.Reduced settings (assemble grammar full script errorCount found)
      (assemble grammar settings script errorCount found) where
  file := rfl
  grammar := rfl
  errorCount := rfl
  exports := rfl
  docComments := rfl
  strings := by simp only [assemble, factsOf, h.strings, if_true]
  imports := by
    simp only [assemble, factsOf, keptImports_full h]
    split_ifs with hinclude
    · simp [keptImports, hinclude]
    · simp [keptImports, hinclude]
  functions := by
    simp only [assemble, factsOf]
    split_ifs with hattach
    · refine List.filterMap_congr fun captures _ => ?_
      rw [function?_settings h, if_pos hattach]
    · rw [List.map_filterMap]
      refine List.filterMap_congr fun captures _ => ?_
      rw [function?_settings h, if_neg hattach]

/-! ### Warnings -/

/-- The warnings among events. -/
def warnings (events : List Event) : List Event :=
  events.filter fun event => event.level = .warning

theorem warnings_append (events more : List Event) :
    warnings (events ++ more) = warnings events ++ warnings more :=
  List.filter_append events more

/-- Loading a language is nothing to be warned of. -/
theorem warnings_of_loading {events : List Event} {id module : String}
    (h : ∀ event ∈ events, event = .grammarLoaded id module) : warnings events = [] := by
  refine List.filter_eq_nil_iff.mpr fun event hevent => ?_
  rw [h event hevent]
  simp [Event.level]

/-- The events that the facts are told with are warnings. -/
theorem warnings_events (grammar : Grammar) (script : Script) (errorCount : Nat) (found : Found) :
    warnings (events grammar script errorCount found) = events grammar script errorCount found := by
  rw [warnings, List.filter_eq_self]
  intro event hevent
  rcases List.mem_append.mp hevent with hevent | hevent
  · rw [errorEvents] at hevent
    split_ifs at hevent with hzero
    · cases hevent
    · rw [List.mem_singleton.mp hevent]
      rfl
  · obtain ⟨record, -, rfl⟩ := List.mem_map.mp hevent
    rfl

/-- A survey warns of the faulty nodes and of the imports of unknown files, whatever the settings
leave out. -/
theorem warnings_run (h : session.Reached Grammar.standard) (settings : ExtractionSettings)
    (script : Script) (root : Node) :
    warnings (run Grammar.standard settings script root session).events =
      events Grammar.standard script root.tally.faults
        fun category => Query.run category script.bytes root := by
  have hload : (session.load Grammar.standard).result = .ok Language.standard :=
    Session.load_result h.valid
  have hcause := gather_cause h.valid.load script.bytes root
    (plan Grammar.standard.transforms settings) Found.none
  rw [findSome?_obstacle?_standard] at hcause
  -- Of all matches, the warnings depend on those of imports only, and these are always looked for.
  have himports := gather_found h.valid.load script.bytes root
    (plan Grammar.standard.transforms settings) Found.none (findSome?_obstacle?_standard _) .imports
  rw [if_pos (by simp [plan, Grammar.standard, Transforms.standard]), Grammar.found_standard]
    at himports
  have hloading : warnings (session.load Grammar.standard).events = [] :=
    warnings_of_loading fun _ => Session.eq_of_mem_load
  have hgather : warnings (gather Grammar.standard script.bytes root
      (plan Grammar.standard.transforms settings) Found.none
      (session.load Grammar.standard).session).events = [] :=
    warnings_of_loading fun _ => eq_of_mem_gather
  simp only [run, hload, hcause, readFacts_eq, warnings_append, hloading, hgather, warnings_events,
    List.nil_append]
  have hdone : ∀ facts, warnings [doneEvent facts] = [] := fun _ => rfl
  rw [hdone, List.append_nil, events, events]
  simp only [allImports, himports]

/-- **What the settings leave out does not touch the rest.** Compared with a survey that leaves
nothing out, strings are all there or none, imports are all there or those of known files, the
functions differ in their documentation at most, and all else is the same. Both surveys give the
same warnings: one of the faulty nodes if there are any, then one for each import of an unknown
file in order. -/
theorem facts_of_settings {other : Session} (h : session.Reached Grammar.standard)
    (hother : other.Reached Grammar.standard) (hfull : full.Full) (settings : ExtractionSettings)
    (script : Script) (root : Node) :
    ∃ facts all : Facts,
      (run Grammar.standard settings script root session).result = .ok facts ∧
      (run Grammar.standard full script root other).result = .ok all ∧
      Facts.Reduced settings all facts ∧
      warnings (run Grammar.standard settings script root session).events =
        warnings (run Grammar.standard full script root other).events ∧
      warnings (run Grammar.standard full script root other).events =
        (if all.errorCount = 0 then [] else [.parseErrors script.file all.errorCount]) ++
          (all.imports.filter (·.isDynamic)).map fun record =>
            .dynamicImport script.file record.location.line record.raw := by
  refine ⟨_, _, run_standard h settings script root, run_standard hother full script root,
    reduced_assemble hfull _ _ _ _ _, ?_, ?_⟩
  · rw [warnings_run h, warnings_run hother]
  · rw [warnings_run hother]
    simp only [events, errorEvents, importEvents, assemble, factsOf, keptImports_full hfull]

/-- A script that reads a file of an unknown name. -/
def unknownScript : Script :=
  Script.ofText "t.sh" ". $A\n".toList

/-- The tree of the script. -/
def unknownTree : Node :=
  ⟨"program", true, false, none, ⟨0, 5, ⟨0, 0⟩, ⟨1, 0⟩⟩,
    [Node.onFirstLine "command" true none 0 4
      [Node.onFirstLine "command_name" true (some "name") 0 1
          [Node.onFirstLine "word" true none 0 1 []],
        Node.onFirstLine "simple_expansion" true (some "argument") 2 4
          [Node.onFirstLine "$" false none 2 3 [],
            Node.onFirstLine "variable_name" true none 3 4 []]]]⟩

/-- Settings that leave out all that can be left out. -/
def leastSettings : ExtractionSettings where
  includeStrings := false
  includeDynamicImports := false
  attachDocComments := false

/-- The import is left out, and still warned of. -/
theorem facts_of_least_settings :
    Session.Reached Grammar.standard {} ∧ ExtractionSettings.Full {} ∧
      ∃ facts all : Facts,
        (run Grammar.standard leastSettings unknownScript unknownTree {}).result = .ok facts ∧
        (run Grammar.standard {} unknownScript unknownTree {}).result = .ok all ∧
        Facts.Reduced leastSettings all facts ∧
        warnings (run Grammar.standard leastSettings unknownScript unknownTree {}).events =
          [.dynamicImport "t.sh" 1 "$A"] := by
  have hfull : ExtractionSettings.Full {} := ⟨rfl, rfl, rfl⟩
  obtain ⟨facts, all, hfacts, hall, hreduced, -, -⟩ :=
    facts_of_settings .fresh .fresh hfull leastSettings unknownScript unknownTree
  refine ⟨.fresh, hfull, facts, all, hfacts, hall, hreduced, ?_⟩
  rw [warnings_run .fresh]
  decide +kernel

end Survey

end ShellSurvey
