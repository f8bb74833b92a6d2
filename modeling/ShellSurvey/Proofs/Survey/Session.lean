import ShellSurvey.Proofs.Grammar.Queries
import ShellSurvey.Proofs.Survey.Reading

/-!
# What a session keeps

A session fills its caches while scripts are surveyed, and a survey may stop early. Whatever came
before, the caches hold nothing but what a fresh session would work out: `Session.Valid` says so,
every step keeps it, and hence it holds of every session that scripts can lead to
(`Session.Reached.valid`).

What a survey comes to is then a matter of the grammar alone (`Survey.run_result`): it fails if the
language cannot be loaded or some planned query does not compile, and else tells the facts of the
matches.
With the standard grammar no step fails, and the facts are those of the matches of all five queries
(`Survey.run_standard`).
-/

namespace ShellSurvey

/-! ### Steps of a session -/

namespace Session

variable {grammar : Grammar} {session : Session} {category : Query.Category}

/-- All that loading does: nothing if a language is there, else it keeps the grammar's one, or
fails and keeps nothing. -/
theorem load_cases (grammar : Grammar) (session : Session) :
    (∃ language, session.language = some language ∧
      session.load grammar = ⟨.ok language, session, []⟩) ∨
    (∃ language, session.language = none ∧ grammar.language = some language ∧
      session.load grammar = ⟨.ok language, { session with language := some language },
        [.grammarLoaded grammar.id grammar.parser.module]⟩) ∨
    ∃ failure events, session.language = none ∧ grammar.loaded = .error failure ∧
      (∀ event ∈ events, event = .grammarLoaded grammar.id grammar.parser.module) ∧
      session.load grammar = ⟨.error failure, session, events⟩ := by
  rw [load, Grammar.language, Grammar.loaded]
  cases hkept : session.language with
  | some language => exact .inl ⟨language, rfl, rfl⟩
  | none =>
    cases hsupply : grammar.supply with
    | language language => exact .inr (.inl ⟨language, rfl, rfl, rfl⟩)
    | missing => exact .inr (.inr ⟨_, [], rfl, rfl, by simp, rfl⟩)
    | broken found trouble =>
      refine .inr (.inr ⟨_, _, rfl, rfl, fun event hevent => ?_, rfl⟩)
      split_ifs at hevent
      · exact List.mem_singleton.mp hevent
      · cases hevent

/-- All that compiling does: it gives what is kept, gives nothing for a category without a query,
fails and keeps no query, or keeps the query that it gives. -/
theorem compile_cases (grammar : Grammar) (category : Query.Category) (session : Session) :
    (∃ query, session.query? category = some query ∧
      session.compile grammar category = ⟨.ok (some query), session, []⟩) ∨
    (session.query? category = none ∧ grammar.queryText? category = none ∧
      session.compile grammar category = ⟨.ok none, session, []⟩) ∨
    (∃ text failure, session.query? category = none ∧ grammar.queryText? category = some text ∧
      (session.load grammar).result = .error failure ∧
      session.compile grammar category =
        ⟨.error (.queryInvalid category.name failure.text), (session.load grammar).session,
          (session.load grammar).events⟩) ∨
    (∃ text language reason, session.query? category = none ∧
      grammar.queryText? category = some text ∧ (session.load grammar).result = .ok language ∧
      language.compile text = .error reason ∧
      session.compile grammar category =
        ⟨.error (.queryInvalid category.name reason), (session.load grammar).session,
          (session.load grammar).events⟩) ∨
    ∃ text language query, session.query? category = none ∧
      grammar.queryText? category = some text ∧ (session.load grammar).result = .ok language ∧
      language.compile text = .ok query ∧
      session.compile grammar category =
        ⟨.ok (some query), { (session.load grammar).session with
          compiled := (session.load grammar).session.compiled ++ [(category, query)] },
          (session.load grammar).events⟩ := by
  rw [compile]
  cases hkept : session.query? category with
  | some query => exact .inl ⟨query, rfl, rfl⟩
  | none =>
    cases htext : grammar.queryText? category with
    | none => exact .inr (.inl ⟨rfl, rfl, rfl⟩)
    | some text =>
      cases hload : (session.load grammar).result with
      | error failure =>
        exact .inr (.inr (.inl ⟨text, failure, rfl, rfl, rfl, by simp only [hload]⟩))
      | ok language =>
        cases hcompile : language.compile text with
        | error reason =>
          exact .inr (.inr (.inr (.inl
            ⟨text, language, reason, rfl, rfl, rfl, hcompile, by simp only [hload, hcompile]⟩)))
        | ok query =>
          exact .inr (.inr (.inr (.inr
            ⟨text, language, query, rfl, rfl, rfl, hcompile, by simp only [hload, hcompile]⟩)))

/-- Loading tells nothing but that the language was loaded. -/
theorem eq_of_mem_load {event : Event} (h : event ∈ (session.load grammar).events) :
    event = .grammarLoaded grammar.id grammar.parser.module := by
  obtain ⟨language, -, hload⟩ | ⟨language, -, -, hload⟩ | ⟨_, _, -, -, hevents, hload⟩ :=
    load_cases grammar session
  · rw [hload] at h
    cases h
  · rw [hload] at h
    exact List.mem_singleton.mp h
  · rw [hload] at h
    exact hevents event h

theorem eq_of_mem_compile {event : Event}
    (h : event ∈ (session.compile grammar category).events) :
    event = .grammarLoaded grammar.id grammar.parser.module := by
  obtain ⟨query, -, hcompile⟩ | ⟨-, -, hcompile⟩ | ⟨text, cause, -, -, -, hcompile⟩ |
    ⟨text, language, reason, -, -, -, -, hcompile⟩ |
    ⟨text, language, query, -, -, -, -, hcompile⟩ := compile_cases grammar category session
  · rw [hcompile] at h
    cases h
  · rw [hcompile] at h
    cases h
  · rw [hcompile] at h
    exact eq_of_mem_load h
  · rw [hcompile] at h
    exact eq_of_mem_load h
  · rw [hcompile] at h
    exact eq_of_mem_load h

/-- The caches of a session hold nothing but what a fresh session would work out. -/
structure Valid (grammar : Grammar) (session : Session) : Prop where
  /-- A loaded language is the grammar's one. -/
  language : ∀ language, session.language = some language → grammar.language = some language
  /-- A compiled query is the one that the grammar's text compiles to. -/
  compiled : ∀ entry ∈ session.compiled, grammar.query entry.1 = .ok (some entry.2)

theorem valid_fresh (grammar : Grammar) : Valid grammar {} where
  language _ h := nomatch h
  compiled _ h := nomatch h

/-- Loading keeps a session valid. -/
theorem Valid.load (h : Valid grammar session) : Valid grammar (session.load grammar).session := by
  obtain ⟨language, -, hload⟩ | ⟨language, -, hgiven, hload⟩ | ⟨_, _, -, -, -, hload⟩ :=
    load_cases grammar session
  · rw [hload]
    exact h
  · rw [hload]
    refine ⟨fun other hother => ?_, h.compiled⟩
    rw [hgiven, ← Option.some.inj hother]
  · rw [hload]
    exact h

/-- Loading does not depend on whether the session has loaded the language before. -/
theorem load_result (h : Valid grammar session) :
    (session.load grammar).result = grammar.loaded := by
  obtain ⟨language, hkept, hload⟩ | ⟨language, -, hgiven, hload⟩ | ⟨_, _, -, hfails, -, hload⟩ :=
    load_cases grammar session
  · rw [hload, Grammar.loaded_eq_ok_iff.mpr (h.language language hkept)]
  · rw [hload, Grammar.loaded_eq_ok_iff.mpr hgiven]
  · rw [hload, hfails]

/-- A query that is kept is the one that the grammar has. -/
theorem query?_eq_some {query : Query.Finder} (h : Valid grammar session)
    (hquery : session.query? category = some query) :
    grammar.query category = .ok (some query) := by
  obtain ⟨entry, hentry, rfl⟩ := Option.map_eq_some_iff.mp hquery
  have hcategory : entry.1 = category := by simpa using List.find?_some hentry
  rw [← hcategory]
  exact h.compiled entry (List.mem_of_find?_eq_some hentry)

/-- Compiling does not depend on what the session has compiled before. -/
theorem compile_result (h : Valid grammar session) (category : Query.Category) :
    (session.compile grammar category).result = grammar.query category := by
  have hload := load_result h
  obtain ⟨query, hkept, hcompile⟩ | ⟨-, htext, hcompile⟩ |
    ⟨text, cause, -, htext, hresult, hcompile⟩ |
    ⟨text, language, reason, -, htext, hresult, hreason, hcompile⟩ |
    ⟨text, language, query, -, htext, hresult, hquery, hcompile⟩ :=
    compile_cases grammar category session
  · rw [hcompile, query?_eq_some h hkept]
  · rw [hcompile, Grammar.query, htext]
  · rw [hcompile, Grammar.query, htext, ← hload, hresult]
  · rw [hcompile, Grammar.query, htext, ← hload, hresult]
    simp only [hreason]
  · rw [hcompile, Grammar.query, htext, ← hload, hresult]
    simp only [hquery]

/-- Compiling keeps a session valid, whether or not it fails. -/
theorem Valid.compile (h : Valid grammar session) (category : Query.Category) :
    Valid grammar (session.compile grammar category).session := by
  have hresult := compile_result h category
  obtain ⟨query, -, hcompile⟩ | ⟨-, -, hcompile⟩ | ⟨text, cause, -, -, -, hcompile⟩ |
    ⟨text, language, reason, -, -, -, -, hcompile⟩ |
    ⟨text, language, query, -, -, -, -, hcompile⟩ := compile_cases grammar category session
  · rw [hcompile]
    exact h
  · rw [hcompile]
    exact h
  · rw [hcompile]
    exact h.load
  · rw [hcompile]
    exact h.load
  · -- The only step that adds to the cache adds what the text compiles to.
    rw [hcompile] at hresult ⊢
    refine ⟨h.load.language, fun entry hentry => ?_⟩
    rcases List.mem_append.mp hentry with hentry | hentry
    · exact h.load.compiled entry hentry
    · obtain rfl := List.mem_singleton.mp hentry
      exact hresult.symm

end Session

/-! ### Surveys -/

namespace Survey

variable {grammar : Grammar} {session : Session}

/-- Running queries tells of nothing but a loaded language. -/
theorem eq_of_mem_gather {bytes : List UInt8} {root : Node} {categories : List Query.Category}
    {found : Found} {event : Event}
    (h : event ∈ (gather grammar bytes root categories found session).events) :
    event = .grammarLoaded grammar.id grammar.parser.module := by
  induction categories generalizing found session with
  | nil => cases h
  | cons category rest ih =>
    rw [gather] at h
    cases hresult : (session.compile grammar category).result with
    | error cause =>
      simp only [hresult] at h
      exact Session.eq_of_mem_compile h
    | ok query =>
      simp only [hresult] at h
      rcases List.mem_append.mp h with h | h
      · exact Session.eq_of_mem_compile h
      · exact ih h

/-- Running queries keeps a session valid, wherever it stops. -/
theorem valid_gather (h : session.Valid grammar) (bytes : List UInt8) (root : Node)
    (categories : List Query.Category) (found : Found) :
    (gather grammar bytes root categories found session).session.Valid grammar := by
  induction categories generalizing found session with
  | nil => exact h
  | cons category rest ih =>
    rw [gather]
    cases hresult : (session.compile grammar category).result with
    | error cause => exact h.compile category
    | ok query => exact ih (h.compile category) _

/-- Gathering stops at the first category whose query does not compile. -/
theorem gather_cause (h : session.Valid grammar) (bytes : List UInt8) (root : Node)
    (categories : List Query.Category) (found : Found) :
    (gather grammar bytes root categories found session).cause =
      categories.findSome? grammar.obstacle? := by
  induction categories generalizing found session with
  | nil => rfl
  | cons category rest ih =>
    have hresult := Session.compile_result h category
    rw [gather, List.findSome?_cons, Grammar.obstacle?]
    cases hquery : grammar.query category with
    | error cause => simp only [hresult, hquery]
    | ok query =>
      simp only [hresult, hquery]
      exact ih (h.compile category) _

/-- Gathering that does not stop finds the matches of all its categories. -/
theorem gather_found (h : session.Valid grammar) (bytes : List UInt8) (root : Node)
    (categories : List Query.Category) (found : Found)
    (hcompile : categories.findSome? grammar.obstacle? = none) (category : Query.Category) :
    (gather grammar bytes root categories found session).found category =
      if category ∈ categories then grammar.found bytes root category else found category := by
  induction categories generalizing found session with
  | nil => simp [gather]
  | cons first rest ih =>
    have hresult := Session.compile_result h first
    rw [List.findSome?_cons, Grammar.obstacle?] at hcompile
    rw [gather]
    cases hquery : grammar.query first with
    | error cause =>
      rw [hquery] at hcompile
      cases hcompile
    | ok query =>
      rw [hquery] at hcompile
      simp only [hresult, hquery, ih (h.compile first) _ hcompile, Found.put, List.mem_cons]
      by_cases hfirst : category = first
      · subst hfirst
        rw [Grammar.found, hquery]
        cases query with
        | none => simp
        | some query => simp
      · simp [hfirst]

/-- A survey keeps a session valid, whether or not it fails. -/
theorem valid_run (h : session.Valid grammar) (settings : ExtractionSettings) (script : Script)
    (root : Node) : (run grammar settings script root session).session.Valid grammar := by
  have hgather := valid_gather h.load script.bytes root (plan grammar.transforms settings)
    Found.none
  rw [run]
  cases hload : (session.load grammar).result with
  | error cause => exact h.load
  | ok language =>
    simp only [readFacts_eq]
    split
    · exact hgather
    · exact hgather

end Survey

/-- The sessions that work with a grammar leads to: loading, compiling and surveying in any
order, whether or not it succeeds. -/
inductive Session.Reached (grammar : Grammar) : Session → Prop
  | fresh : Reached grammar {}
  | load {session : Session} : Reached grammar session →
      Reached grammar (session.load grammar).session
  | compile {session : Session} (category : Query.Category) : Reached grammar session →
      Reached grammar (session.compile grammar category).session
  | survey {session : Session} (settings : ExtractionSettings) (script : Script) (root : Node) :
      Reached grammar session →
      Reached grammar (Survey.run grammar settings script root session).session

/-- Every session that surveys can reach is valid. -/
theorem Session.Reached.valid {grammar : Grammar} {session : Session}
    (h : Session.Reached grammar session) : session.Valid grammar := by
  induction h with
  | fresh => exact Session.valid_fresh grammar
  | load _ ih => exact ih.load
  | compile category _ ih => exact ih.compile category
  | survey settings script root _ ih => exact Survey.valid_run ih settings script root

/-! ### What a survey comes to -/

namespace Survey

variable {grammar : Grammar} {session : Session}

/-- The facts depend on the matches of the planned categories only. -/
theorem assemble_congr {grammar : Grammar} {settings : ExtractionSettings} {found other : Found}
    (script : Script) (errorCount : Nat)
    (h : ∀ category ∈ plan grammar.transforms settings, found category = other category) :
    assemble grammar settings script errorCount found =
      assemble grammar settings script errorCount other := by
  have hfunctions : found .functions = other .functions := h _ (by simp [plan])
  have hexports : found .exports = other .exports := h _ (by simp [plan])
  have hremarks : allRemarks grammar.transforms script found =
      allRemarks grammar.transforms script other := by
    rw [allRemarks, allRemarks]
    cases hcomment : grammar.transforms.comment with
    | none => rfl
    | some read => simp only [h .docComments (by simp [plan, hcomment])]
  have himports : allImports grammar.transforms script found =
      allImports grammar.transforms script other := by
    rw [allImports, allImports]
    cases himported : grammar.transforms.imported with
    | none => rfl
    | some read => simp only [h .imports (by simp [plan, himported])]
  have hstrings : (if settings.includeStrings then (found .strings).filterMap (string? script)
      else []) = if settings.includeStrings then (other .strings).filterMap (string? script)
      else [] := by
    split_ifs with hsettings
    · rw [h .strings (by simp [plan, hsettings])]
    · rfl
  simp only [assemble, factsOf, hfunctions, hexports, hremarks, himports, hstrings]

/-- What a survey comes to, whatever was surveyed before. -/
def outcome (grammar : Grammar) (settings : ExtractionSettings) (script : Script) (root : Node) :
    Except Failure Facts :=
  match grammar.loaded with
  | .error failure => .error failure
  | .ok _ =>
    match (plan grammar.transforms settings).findSome? grammar.obstacle? with
    | some cause => .error (.fault cause)
    | none =>
      .ok (assemble grammar settings script root.tally.faults (grammar.found script.bytes root))

/-- **A survey depends on the grammar, the settings and the script only.** -/
theorem run_result (h : session.Valid grammar) (settings : ExtractionSettings) (script : Script)
    (root : Node) :
    (run grammar settings script root session).result = outcome grammar settings script root := by
  have hload := Session.load_result h
  have hcause := gather_cause h.load script.bytes root (plan grammar.transforms settings) Found.none
  have hfound := gather_found h.load script.bytes root (plan grammar.transforms settings) Found.none
  rw [run, outcome]
  cases hloaded : grammar.loaded with
  | error failure => simp only [hload, hloaded]
  | ok language =>
    simp only [hload, hloaded, hcause, readFacts_eq]
    cases hobstacle : (plan grammar.transforms settings).findSome? grammar.obstacle? with
    | some cause => rfl
    | none =>
      refine congrArg Except.ok (assemble_congr script _ fun category hcategory => ?_)
      rw [hfound hobstacle, if_pos hcategory]

theorem findSome?_obstacle?_standard (categories : List Query.Category) :
    categories.findSome? Grammar.standard.obstacle? = none :=
  List.findSome?_eq_none_iff.mpr fun category _ => Grammar.obstacle?_standard category

/-- **A survey with the standard grammar tells the facts of all matches**, whatever was surveyed
before. -/
theorem run_standard {session : Session} (h : session.Reached Grammar.standard)
    (settings : ExtractionSettings) (script : Script) (root : Node) :
    (run Grammar.standard settings script root session).result =
      .ok (assemble Grammar.standard settings script root.tally.faults
        fun category => Query.run category script.bytes root) := by
  have hloaded : Grammar.standard.loaded = .ok Language.standard := rfl
  rw [run_result h.valid, outcome, findSome?_obstacle?_standard, Grammar.found_standard]
  simp only [hloaded]

end Survey

end ShellSurvey
