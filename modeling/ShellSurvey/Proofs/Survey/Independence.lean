import ShellSurvey.Proofs.Survey.Session

/-!
# Scripts do not depend on each other

One session surveys many scripts, and its caches fill up on the way, perhaps only in part because
a survey stopped early. None of this shows in what is told of a script (`results_of_runAll`).

The reason is what the caches can hold. `Session.Transparent` collects it: a kept language is the
grammar's one, a kept query is what the text of its category compiles to, and a step that gives
nothing or fails keeps nothing, so that it fails again in the same way.
-/

namespace ShellSurvey

variable {grammar : Grammar} {session : Session} {category : Query.Category}

/-! ### Transparent caches -/

/-- The caches of a session show in no result. -/
structure Session.Transparent (grammar : Grammar) (session : Session) : Prop where
  /-- A kept language is the grammar's one. -/
  language : ∀ language, session.language = some language → grammar.language = some language
  /-- A kept query is what the text of its category compiles to. -/
  query : ∀ category query, session.query? category = some query →
    ∃ text language, grammar.queryText? category = some text ∧
      grammar.language = some language ∧ language.compile text = .ok query
  /-- Where the grammar has no query, or a blank one, nothing is given and nothing is kept. -/
  blank : ∀ category, grammar.queryText? category = none →
    session.compile grammar category = ⟨.ok none, session, []⟩
  /-- Loading that fails keeps nothing, and fails in every session. -/
  load_failed : ∀ cause, (session.load grammar).result = .error cause →
    (session.load grammar).session = session ∧
      ∀ other : Session, other.Reached grammar → (other.load grammar).result = .error cause
  /-- Compiling that fails keeps no query, and nothing at all once the language is loaded or if it
  cannot be; it fails in every session. -/
  compile_failed : ∀ category cause, (session.compile grammar category).result = .error cause →
    (session.compile grammar category).session.compiled = session.compiled ∧
      (session.language.isSome ∨ grammar.language = none →
        (session.compile grammar category).session = session) ∧
      ∀ other : Session, other.Reached grammar →
        (other.compile grammar category).result = .error cause

namespace Session

/-- Loading the language leaves the compiled queries alone. -/
theorem load_compiled (grammar : Grammar) (session : Session) :
    (session.load grammar).session.compiled = session.compiled := by
  obtain ⟨language, -, hload⟩ | ⟨language, -, -, hload⟩ | ⟨_, _, -, -, -, hload⟩ :=
    load_cases grammar session
  · rw [hload]
  · rw [hload]
  · rw [hload]

/-- Nothing changes if the language is loaded already or cannot be loaded. -/
theorem load_session (h : session.language.isSome ∨ grammar.language = none) :
    (session.load grammar).session = session := by
  obtain ⟨language, -, hload⟩ | ⟨language, hkept, hgiven, hload⟩ | ⟨_, _, -, -, -, hload⟩ :=
    load_cases grammar session
  · rw [hload]
  · rw [hkept, hgiven] at h
    rcases h with h | h
    · cases h
    · cases h
  · rw [hload]

/-- Compiling that fails does no more to a session than loading does. -/
theorem compile_session_of_error {cause : Cause}
    (h : (session.compile grammar category).result = .error cause) :
    (session.compile grammar category).session = (session.load grammar).session := by
  obtain ⟨query, -, hcompile⟩ | ⟨-, -, hcompile⟩ | ⟨text, reason, -, -, -, hcompile⟩ |
    ⟨text, language, reason, -, -, -, -, hcompile⟩ |
    ⟨text, language, query, -, -, -, -, hcompile⟩ := compile_cases grammar category session
  · rw [hcompile] at h
    cases h
  · rw [hcompile] at h
    cases h
  · rw [hcompile]
  · rw [hcompile]
  · rw [hcompile] at h
    cases h

/-- Where the grammar has no query, none can have been kept. -/
theorem compile_of_blank (h : session.Valid grammar) (htext : grammar.queryText? category = none) :
    session.compile grammar category = ⟨.ok none, session, []⟩ := by
  -- A kept query comes from a text that is not blank.
  have hkept : session.query? category = none := by
    by_contra hsome
    obtain ⟨query, hquery⟩ := Option.ne_none_iff_exists'.mp hsome
    obtain ⟨text, -, htext', -⟩ := Grammar.exists_of_query (query?_eq_some h hquery)
    rw [htext] at htext'
    cases htext'
  rw [compile, hkept, htext]

/-- Every session that work leads to has transparent caches. -/
theorem Reached.transparent (h : session.Reached grammar) : session.Transparent grammar where
  language := h.valid.language
  query _ _ hquery := Grammar.exists_of_query (query?_eq_some h.valid hquery)
  blank _ htext := compile_of_blank h.valid htext
  load_failed cause hcause := by
    -- What loading comes to is a matter of the grammar, so it is the same for `other`.
    have hloaded : grammar.loaded = .error cause := (load_result h.valid).symm.trans hcause
    exact ⟨load_session (.inr (Grammar.language_eq_none_of_loaded hloaded)),
      fun other hother => (load_result hother.valid).trans hloaded⟩
  compile_failed category cause hcause := by
    have hquery : grammar.query category = .error cause :=
      (compile_result h.valid category).symm.trans hcause
    have hsession := compile_session_of_error hcause
    refine ⟨?_, fun hkept => ?_, fun other hother => ?_⟩
    · rw [hsession, load_compiled]
    · rw [hsession, load_session hkept]
    · rw [compile_result hother.valid, hquery]

end Session

/-! ### Runs of any length -/

namespace Survey

/-- Every survey of a series leaves a session that a series can reach. -/
theorem reached_of_mem_runAll {settings : ExtractionSettings} {scripts : List (Script × Node)}
    (h : session.Reached grammar) {step : Step Failure Facts}
    (hstep : step ∈ runAll grammar settings scripts session) :
    step.session.Reached grammar := by
  induction scripts generalizing session with
  | nil => cases hstep
  | cons first rest ih =>
    have hfirst := h.survey settings first.1 first.2
    rcases List.mem_cons.mp hstep with rfl | hstep
    · exact hfirst
    · exact ih hfirst hstep

/-- The results of a series are those of the scripts one by one. -/
theorem runAll_results (h : session.Valid grammar) (settings : ExtractionSettings)
    (scripts : List (Script × Node)) :
    (runAll grammar settings scripts session).map (·.result) =
      scripts.map fun script => outcome grammar settings script.1 script.2 := by
  induction scripts generalizing session with
  | nil => rfl
  | cons first rest ih =>
    have hrest := ih (valid_run h settings first.1 first.2)
    rw [runAll, List.map_cons, List.map_cons, run_result h, hrest]

/-- **What a session tells of a script, a fresh session tells of the script alone.** However many
scripts come before, and whether or not they fail, the result of each is that of a fresh session;
and at every point of the run the caches are transparent. -/
theorem results_of_runAll (h : session.Reached grammar) (settings : ExtractionSettings)
    (scripts : List (Script × Node)) :
    (runAll grammar settings scripts session).map (·.result) =
        scripts.map (fun script => (run grammar settings script.1 script.2 {}).result) ∧
      session.Transparent grammar ∧
      ∀ step ∈ runAll grammar settings scripts session, step.session.Transparent grammar := by
  refine ⟨?_, h.transparent, fun step hstep => (reached_of_mem_runAll h hstep).transparent⟩
  rw [runAll_results h.valid]
  exact List.map_congr_left fun script _ =>
    (run_result (Session.valid_fresh grammar) settings script.1 script.2).symm

/-- A grammar whose query for exports does not compile. -/
def brokenGrammar : Grammar :=
  { Grammar.standard with
    supply := .language
      ⟨fun text => if text = "(" then .error "unclosed" else .ok fun _ _ => []⟩
    queries := fun category => some (if category = .exports then "(" else "(word)") }

/-- The tree of an empty script. -/
def emptyTree : Node :=
  ⟨"program", true, false, none, ⟨0, 0, ⟨0, 0⟩, ⟨0, 0⟩⟩, []⟩

/-- A session that a survey has left halfway, with three queries compiled: the scripts after it
fail as they would alone. -/
theorem results_after_broken_survey :
    let failed := run brokenGrammar {} (Script.ofText "a.sh" []) emptyTree {}
    failed.session.Reached brokenGrammar ∧
      failed.session.compiled.map (·.1) = [.docComments, .functions, .imports] ∧
      (runAll brokenGrammar {} [(Script.ofText "b.sh" [], emptyTree)] failed.session).map
          (·.result) =
        [(run brokenGrammar {} (Script.ofText "b.sh" []) emptyTree {}).result] ∧
      failed.session.Transparent brokenGrammar := by
  intro failed
  have hfailed : failed.session.Reached brokenGrammar := .survey {} _ _ .fresh
  obtain ⟨hresults, hsession, -⟩ :=
    results_of_runAll hfailed {} [(Script.ofText "b.sh" [], emptyTree)]
  exact ⟨hfailed, by decide +kernel, hresults, hsession⟩

end Survey

end ShellSurvey
