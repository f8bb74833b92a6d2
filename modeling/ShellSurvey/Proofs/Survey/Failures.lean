import ShellSurvey.Proofs.Param.Index
import ShellSurvey.Proofs.Survey.Session

/-!
# When a survey fails

A survey fails for two reasons only: the language of the grammar cannot be loaded, or a query that
it runs does not compile, and then the first one in the order of the survey is named. A language
that is missing is a fault, but a package that is there and gives no language is trouble that passes
through as it is. `Refusal` states all this without a session, and `run_fails_iff` says that nothing
else stops a survey, however the matches and the tree look.

The order in which queries are compiled is the order in which they are run, so the first refused
query of the plan is the first of all categories that are run (`findSome?_plan_iff`).
-/

namespace ShellSurvey.Survey

variable {grammar : Grammar} {settings : ExtractionSettings} {session : Session}

/-! ### The reasons -/

/-- The categories in the order in which a survey comes to them. -/
def order : List Query.Category :=
  [.docComments, .functions, .imports, .exports, .strings]

/-- Whether a survey runs the query of a category. Comments and imports are of no use without the
function that reads them, and strings are left out on request. -/
def runs (transforms : Transforms) (settings : ExtractionSettings) : Query.Category → Bool
  | .docComments => transforms.comment.isSome
  | .functions => true
  | .imports => transforms.imported.isSome
  | .exports => true
  | .strings => settings.includeStrings

/-- The query of a category is not blank, and the language refuses it for that reason. -/
def Refused (grammar : Grammar) (language : Language) (category : Query.Category)
    (reason : String) : Prop :=
  ∃ text, grammar.queries category = some text ∧ (∃ c ∈ text.toList, Text.isBlank c = false) ∧
    language.compile text = .error reason

/-- The category is the first one that is run and whose query is refused. -/
def FirstRefused (grammar : Grammar) (settings : ExtractionSettings) (language : Language)
    (category : Query.Category) (reason : String) : Prop :=
  runs grammar.transforms settings category ∧ Refused grammar language category reason ∧
    ∃ before after, order = before ++ category :: after ∧
      ∀ earlier ∈ before, runs grammar.transforms settings earlier →
        ∀ other, ¬Refused grammar language earlier other

/-- What stops every survey with a grammar and settings. -/
inductive Refusal (grammar : Grammar) (settings : ExtractionSettings) : Failure → Prop
  /-- The language is missing. -/
  | missing : grammar.supply = .missing →
      Refusal grammar settings
        (.fault (.grammarMissing grammar.parser.module grammar.parser.package))
  /-- The package gives trouble in place of a language. -/
  | broken {found : Bool} {trouble : Trouble} : grammar.supply = .broken found trouble →
      Refusal grammar settings (.trouble trouble)
  /-- The query of the category is the first one that does not compile. -/
  | query {language : Language} {category : Query.Category} {reason : String} :
      grammar.supply = .language language →
      FirstRefused grammar settings language category reason →
      Refusal grammar settings (.fault (.queryInvalid category.name reason))

/-- The standard grammar, with a language that its package may give. -/
def standardOver (language : Language) : Grammar :=
  { Grammar.standard with supply := .language language }

/-- Whether a language compiles the standard queries. -/
def Understands (language : Language) : Prop :=
  ∀ category, ∃ finder, language.compile (Query.standardText category) = .ok finder

/-! ### The plan of a survey -/

/-- The categories that are run are taken from all of them in a fixed order. -/
theorem plan_eq_filter (transforms : Transforms) (settings : ExtractionSettings) :
    plan transforms settings = order.filter (runs transforms settings) := by
  cases hcomment : transforms.comment.isSome <;> cases himported : transforms.imported.isSome <;>
    cases hstrings : settings.includeStrings <;>
      simp [plan, order, runs, List.filter_cons, hcomment, himported, hstrings]

variable {language : Language} {category : Query.Category} {cause : Cause}

/-- With a language at hand, the only obstacle is a query that it refuses. -/
theorem obstacle?_iff_refused (h : grammar.language = some language) :
    grammar.obstacle? category = some cause ↔
      ∃ reason, Refused grammar language category reason ∧
        cause = .queryInvalid category.name reason := by
  rw [Grammar.obstacle?_eq_some_iff h]
  constructor
  · rintro ⟨text, reason, htext, hcompile, hcause⟩
    obtain ⟨hqueries, hblank⟩ := Grammar.queryText?_eq_some_iff.mp htext
    exact ⟨reason, ⟨text, hqueries, hblank, hcompile⟩, hcause⟩
  · rintro ⟨reason, ⟨text, hqueries, hblank, hcompile⟩, hcause⟩
    exact ⟨text, reason, Grammar.queryText?_eq_some_iff.mpr ⟨hqueries, hblank⟩, hcompile, hcause⟩

theorem obstacle?_eq_none_iff (h : grammar.language = some language) :
    grammar.obstacle? category = none ↔ ∀ reason, ¬Refused grammar language category reason := by
  rw [Option.eq_none_iff_forall_ne_some]
  constructor
  · intro hnone reason hrefused
    exact hnone _ ((obstacle?_iff_refused h).mpr ⟨reason, hrefused, rfl⟩)
  · intro hnone cause hcause
    obtain ⟨reason, hrefused, -⟩ := (obstacle?_iff_refused h).mp hcause
    exact hnone reason hrefused

/-- What stops the gathering of matches is the first refused query. -/
theorem findSome?_plan_iff (h : grammar.language = some language) :
    (plan grammar.transforms settings).findSome? grammar.obstacle? = some cause ↔
      ∃ category reason, FirstRefused grammar settings language category reason ∧
        cause = .queryInvalid category.name reason := by
  -- Categories that are not run are kept in the list, as ones without an obstacle, so that the
  -- first obstacle splits `order` itself.
  rw [plan_eq_filter, ← List.head?_filterMap, List.filterMap_filter, List.head?_filterMap,
    List.findSome?_eq_some_iff]
  constructor
  · rintro ⟨before, category, after, horder, hcause, hbefore⟩
    obtain ⟨hruns, hcause⟩ := Option.ite_none_right_eq_some.mp hcause
    obtain ⟨reason, hrefused, rfl⟩ := (obstacle?_iff_refused h).mp hcause
    refine ⟨category, reason, ⟨hruns, hrefused, before, after, horder, ?_⟩, rfl⟩
    intro earlier hearlier hearlierRuns
    have hnone := hbefore earlier hearlier
    rw [if_pos hearlierRuns] at hnone
    exact (obstacle?_eq_none_iff h).mp hnone
  · rintro ⟨category, reason, ⟨hruns, hrefused, before, after, horder, hbefore⟩, rfl⟩
    refine ⟨before, category, after, horder, ?_, ?_⟩
    · rw [if_pos hruns]
      exact (obstacle?_iff_refused h).mpr ⟨reason, hrefused, rfl⟩
    · intro earlier hearlier
      split_ifs with hearlierRuns
      · exact (obstacle?_eq_none_iff h).mpr (hbefore earlier hearlier hearlierRuns)
      · rfl

/-! ### Failures of a survey -/

/-- A survey fails just for the refusals. -/
theorem outcome_eq_error_iff (script : Script) (root : Node) {failure : Failure} :
    outcome grammar settings script root = .error failure ↔ Refusal grammar settings failure := by
  rw [outcome, Grammar.loaded]
  cases hsupply : grammar.supply with
  | missing =>
    constructor
    · intro h
      obtain rfl := Except.error.inj h
      exact .missing hsupply
    · intro h
      cases h with
      | missing => rfl
      | broken hother => rw [hsupply] at hother; cases hother
      | query hother => rw [hsupply] at hother; cases hother
  | broken found trouble =>
    constructor
    · intro h
      obtain rfl := Except.error.inj h
      exact .broken hsupply
    · intro h
      cases h with
      | missing hother => rw [hsupply] at hother; cases hother
      | broken hother => rw [hsupply] at hother; cases hother; rfl
      | query hother => rw [hsupply] at hother; cases hother
  | language language =>
    have hlanguage : grammar.language = some language := by rw [Grammar.language, hsupply]
    dsimp only
    constructor
    · intro h
      split at h
      · rename_i cause hcause
        obtain ⟨category, reason, hfirst, rfl⟩ := (findSome?_plan_iff hlanguage).mp hcause
        obtain rfl := Except.error.inj h
        exact .query hsupply hfirst
      · cases h
    · intro h
      cases h with
      | missing hother => rw [hsupply] at hother; cases hother
      | broken hother => rw [hsupply] at hother; cases hother
      | query hother hfirst =>
        rw [hsupply] at hother
        cases hother
        rw [(findSome?_plan_iff hlanguage).mpr ⟨_, _, hfirst, rfl⟩]

/-- A survey that does not fail tells the facts of the matches. -/
theorem eq_assemble_of_outcome {script : Script} {root : Node} {facts : Facts}
    (h : outcome grammar settings script root = .ok facts) :
    facts = assemble grammar settings script root.tally.faults
      (grammar.found script.bytes root) := by
  rw [outcome] at h
  split at h
  · cases h
  · split at h
    · cases h
    · exact (Except.ok.inj h).symm

/-- A survey has facts just if nothing is refused. -/
theorem outcome_eq_ok_iff (script : Script) (root : Node) :
    (∃ facts, outcome grammar settings script root = .ok facts) ↔
      ∀ failure, ¬Refusal grammar settings failure := by
  constructor
  · rintro ⟨facts, hfacts⟩ failure hrefusal
    rw [(outcome_eq_error_iff script root).mpr hrefusal] at hfacts
    cases hfacts
  · intro hnone
    cases houtcome : outcome grammar settings script root with
    | ok facts => exact ⟨facts, rfl⟩
    | error failure =>
      exact absurd ((outcome_eq_error_iff script root).mp houtcome) (hnone failure)

/-- The code tells a missing language from a refused query. -/
theorem code_of_refusal (h : Refusal grammar settings (.fault cause)) :
    cause.fault.code.name =
      if grammar.language.isNone then "GRAMMAR_NOT_INSTALLED" else "GRAMMAR_QUERY_INVALID" := by
  rw [Grammar.language]
  cases h with
  | missing hsupply => rw [hsupply]; rfl
  | query hsupply => rw [hsupply]; rfl

/-! ### The standard grammar -/

/-- Nothing stops a survey with a language that compiles the standard queries. -/
theorem not_refusal_standardOver (h : Understands language) (failure : Failure) :
    ¬Refusal (standardOver language) settings failure := by
  intro hrefusal
  cases hrefusal with
  | missing hsupply => cases hsupply
  | broken hsupply => cases hsupply
  | query hsupply hfirst =>
    cases hsupply
    obtain ⟨-, ⟨text, htext, -, hrefused⟩, -⟩ := hfirst
    obtain rfl := Option.some.inj htext
    obtain ⟨finder, hfinder⟩ := h _
    rw [hfinder] at hrefused
    cases hrefused

/-- The parameters of a function that the standard grammar tells have an index. -/
theorem index_of_mem_assemble {script : Script} {errorCount : Nat} {found : Found}
    {function : Function} {param : Param}
    (hfunction : function ∈
      (assemble (standardOver language) settings script errorCount found).functions)
    (hparam : param ∈ function.params) : ∃ index, param.index = .ok index := by
  obtain ⟨captures, -, hcaptures⟩ := List.mem_filterMap.mp hfunction
  rw [function?] at hcaptures
  obtain ⟨-, hcaptures⟩ := Option.ite_none_left_eq_some.mp hcaptures
  obtain ⟨anchor, -, rfl⟩ := Option.map_eq_some_iff.mp hcaptures
  exact Param.index_of_mem_infer hparam

/-- The standard language compiles the standard queries. -/
theorem understands_standard : Understands Language.standard := by
  intro category
  refine ⟨Query.run category, ?_⟩
  simp only [Language.standard, Query.compile?_standardText]

/-- A grammar without a function that reads imports, whose language refuses every query. -/
def refusingGrammar : Grammar :=
  { Grammar.standard with
    supply := .language ⟨fun _ => .error "refused"⟩
    queries := fun category => some (if category = .functions then " \t" else "(word)")
    transforms := Transforms.standard.without "parse_import" |>.without "parse_doc_comment" }

/-- The tree of a script that cannot be read at all. -/
def faultyTree : Node :=
  ⟨"ERROR", true, false, none, ⟨0, 1, ⟨0, 0⟩, ⟨0, 1⟩⟩, []⟩

/-- A package whose module has a text where the function for the language should be. -/
def textPackage : ParserPackage :=
  { ParserPackage.standard with languageFunction := "__name__" }

/-- The standard grammar with that package. -/
def textGrammar : Grammar :=
  { Grammar.standard with parser := textPackage, supply := textPackage.supply }

end ShellSurvey.Survey
