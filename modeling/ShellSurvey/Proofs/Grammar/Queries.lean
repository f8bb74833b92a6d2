import Mathlib.Data.List.TakeWhile
import ShellSurvey.Survey.Session

/-!
# What the queries of a grammar come to

Loading a language and compiling a query can fail. `Grammar.loaded` and `Grammar.query` say what
they come to without a session that keeps what was loaded and compiled before; `Grammar.found` are
the matches in a tree. With the standard grammar nothing fails, and the matches are those of the
five standard queries (`Grammar.found_standard`).
-/

namespace ShellSurvey

/-- Nothing is left of a text of blanks, and of no other text. -/
theorem Text.trim_eq_nil_iff {cs : List Char} : trim cs = [] ↔ ∀ c ∈ cs, isBlank c := by
  rw [trim, trimBack, trimFront, List.reverse_eq_nil_iff, List.dropWhile_eq_nil_iff]
  constructor
  · intro h c hc
    rw [← List.takeWhile_append_dropWhile (p := isBlank) (l := cs)] at hc
    rcases List.mem_append.mp hc with hc | hc
    · exact List.mem_takeWhile_imp hc
    · exact h c (List.mem_reverse.mpr hc)
  · intro h c hc
    exact h c (List.dropWhile_subset _ (List.mem_reverse.mp hc))

/-! ### The standard queries -/

namespace Query

private theorem toList_foldl_append (lines : List String) (text : String) :
    ∃ rest, (lines.foldl (fun r s => r ++ s) text).toList = text.toList ++ rest := by
  induction lines generalizing text with
  | nil => exact ⟨[], (List.append_nil _).symm⟩
  | cons line lines ih =>
    obtain ⟨rest, hrest⟩ := ih (text ++ line)
    refine ⟨line.toList ++ rest, ?_⟩
    rw [List.foldl_cons, hrest, String.toList_append, List.append_assoc]

theorem toList_ofLines (line : String) (lines : List String) :
    ∃ rest, (ofLines (line :: lines)).toList = '\n' :: (line.toList ++ rest) := by
  obtain ⟨rest, hrest⟩ := toList_foldl_append (lines.map (· ++ "\n")) ("" ++ (line ++ "\n"))
  refine ⟨"\n".toList ++ rest, ?_⟩
  rw [ofLines, String.join, List.map_cons, List.foldl_cons, String.toList_append, hrest]
  simp

/-- The first characters of the query of a category. -/
def opening : Category → List Char
  | .functions => "(functi".toList
  | .strings => "; Singl".toList
  | .imports => "(comman".toList
  | .exports => "(declar".toList
  | .docComments => "(commen".toList

/-- The standard queries differ in their first characters. -/
theorem opening_injective {a b : Category} (h : opening a = opening b) : a = b := by
  revert h
  cases a <;> cases b <;> decide

theorem length_opening (category : Category) : (opening category).length = 7 := by
  cases category <;> decide

/-- No standard query is blank. -/
theorem exists_mem_opening (category : Category) :
    ∃ c ∈ opening category, Text.isBlank c = false := by
  have hany : (opening category).any fun c => !Text.isBlank c := by cases category <;> decide
  simpa using hany

theorem toList_standardText (category : Category) :
    ∃ rest, (standardText category).toList = '\n' :: (opening category ++ rest) := by
  have hline : ∀ line lines, standardText category = ofLines (line :: lines) →
      line.toList.take 7 = opening category →
      ∃ rest, (standardText category).toList = '\n' :: (opening category ++ rest) := by
    intro line lines htext hopening
    obtain ⟨rest, hrest⟩ := toList_ofLines line lines
    refine ⟨line.toList.drop 7 ++ rest, ?_⟩
    rw [htext, hrest, ← hopening, ← List.append_assoc, List.take_append_drop]
  cases category
  · exact hline _ _ rfl (by decide)
  · exact hline _ _ rfl (by decide)
  · exact hline _ _ rfl (by decide)
  · exact hline _ _ rfl (by decide)
  · exact hline _ _ rfl (by decide)

/-- Different categories have different standard queries. -/
theorem standardText_injective {a b : Category} (h : standardText a = standardText b) : a = b := by
  obtain ⟨resta, ha⟩ := toList_standardText a
  obtain ⟨restb, hb⟩ := toList_standardText b
  have heq : opening a ++ resta = opening b ++ restb := by
    rw [h, hb] at ha
    exact (List.cons.inj ha).2.symm
  have hlength : (opening a).length = (opening b).length := by
    rw [length_opening, length_opening]
  exact opening_injective (List.append_inj_left heq hlength)

/-- A standard query compiles to the query of its category. -/
theorem compile?_standardText (category : Category) :
    compile? (standardText category) = some category := by
  have hmem : category ∈ Category.all := by cases category <;> decide
  have hfound :
      (Category.all.find? fun other => standardText other == standardText category).isSome :=
    List.find?_isSome.mpr ⟨category, hmem, beq_self_eq_true _⟩
  obtain ⟨other, hother⟩ := Option.isSome_iff_exists.mp hfound
  have heq := List.find?_some hother
  rw [compile?, hother, standardText_injective (beq_iff_eq.mp heq)]

end Query

/-! ### What a grammar comes to -/

namespace Grammar

/-- What loading the language of a grammar comes to. -/
def loaded (grammar : Grammar) : Except Survey.Failure Language :=
  match grammar.supply with
  | .language language => .ok language
  | .broken _ trouble => .error (.trouble trouble)
  | .missing => .error (.fault (.grammarMissing grammar.parser.module grammar.parser.package))

/-- What compiling the query of a category comes to. -/
def query (grammar : Grammar) (category : Query.Category) :
    Except Cause (Option Query.Finder) :=
  match grammar.queryText? category with
  | none => .ok none
  | some text =>
    match grammar.loaded with
    | .error failure => .error (.queryInvalid category.name failure.text)
    | .ok language =>
      match language.compile text with
      | .error reason => .error (.queryInvalid category.name reason)
      | .ok query => .ok (some query)

/-- Why the query of a category does not compile, if it does not. -/
def obstacle? (grammar : Grammar) (category : Query.Category) : Option Cause :=
  match grammar.query category with
  | .error cause => some cause
  | .ok _ => none

/-- The matches of the queries of a grammar in a tree. -/
def found (grammar : Grammar) (bytes : List UInt8) (root : Node) : Survey.Found :=
  fun category =>
    match grammar.query category with
    | .ok (some query) => query bytes root
    | _ => []

variable {grammar : Grammar} {category : Query.Category} {language : Language}

/-- Loading gives the language of a grammar, if it gives one. -/
theorem loaded_eq_ok_iff : grammar.loaded = .ok language ↔ grammar.language = some language := by
  rw [loaded, Grammar.language]
  cases grammar.supply <;> simp

/-- Loading fails exactly if the grammar has no language. -/
theorem language_eq_none_of_loaded {failure : Survey.Failure}
    (h : grammar.loaded = .error failure) :
    grammar.language = none := by
  cases hlanguage : grammar.language with
  | none => rfl
  | some language =>
    rw [loaded_eq_ok_iff.mpr hlanguage] at h
    cases h

/-- A query has a text if it is written with a character that is not blank. -/
theorem queryText?_eq_some_iff {text : String} :
    grammar.queryText? category = some text ↔
      grammar.queries category = some text ∧ ∃ c ∈ text.toList, Text.isBlank c = false := by
  have hblank : (Text.trim text.toList).isEmpty = false ↔
      ∃ c ∈ text.toList, Text.isBlank c = false := by
    rw [List.isEmpty_eq_false_iff, Ne, Text.trim_eq_nil_iff]
    simp
  rw [queryText?, ← hblank]
  cases grammar.queries category with
  | none => simp
  | some other =>
    constructor
    · intro h
      simp only [Option.ite_none_left_eq_some, Option.some.injEq] at h
      obtain ⟨hother, rfl⟩ := h
      exact ⟨rfl, by simpa using hother⟩
    · rintro ⟨hother, hne⟩
      obtain rfl := Option.some.inj hother
      simp [hne]

/-- What compiles to a query has a text, and a language that understands it. -/
theorem exists_of_query {finder : Query.Finder} (h : grammar.query category = .ok (some finder)) :
    ∃ text language, grammar.queryText? category = some text ∧
      grammar.language = some language ∧ language.compile text = .ok finder := by
  rw [query] at h
  cases htext : grammar.queryText? category with
  | none =>
    rw [htext] at h
    cases h
  | some text =>
    cases hloaded : grammar.loaded with
    | error failure =>
      rw [htext, hloaded] at h
      cases h
    | ok language =>
      rw [htext, hloaded] at h
      cases hcompile : language.compile text with
      | error reason =>
        simp only [hcompile] at h
        cases h
      | ok found =>
        simp only [hcompile] at h
        cases h
        exact ⟨text, language, rfl, loaded_eq_ok_iff.mp hloaded, hcompile⟩

/-- With a language at hand, a query stands in the way only by a text that it refuses. -/
theorem obstacle?_eq_some_iff (h : grammar.language = some language) {cause : Cause} :
    grammar.obstacle? category = some cause ↔
      ∃ text reason, grammar.queryText? category = some text ∧
        language.compile text = .error reason ∧ cause = .queryInvalid category.name reason := by
  have hloaded : grammar.loaded = .ok language := loaded_eq_ok_iff.mpr h
  rw [obstacle?, query]
  cases grammar.queryText? category with
  | none => simp
  | some text =>
    simp only [hloaded, Option.some.injEq]
    cases hcompile : language.compile text with
    | error reason =>
      constructor
      · intro hcause
        exact ⟨text, reason, rfl, hcompile, (Option.some.inj hcause).symm⟩
      · rintro ⟨_, _, rfl, hother, rfl⟩
        rw [hcompile] at hother
        rw [Except.error.inj hother]
    | ok query =>
      constructor
      · intro hcause
        cases hcause
      · rintro ⟨_, _, rfl, hother, -⟩
        rw [hcompile] at hother
        cases hother

/-! ### The standard grammar -/

theorem queryText?_standard (category : Query.Category) :
    standard.queryText? category = some (Query.standardText category) := by
  obtain ⟨rest, hrest⟩ := Query.toList_standardText category
  obtain ⟨c, hc, hnotBlank⟩ := Query.exists_mem_opening category
  refine queryText?_eq_some_iff.mpr ⟨rfl, c, ?_, hnotBlank⟩
  rw [hrest]
  exact List.mem_cons_of_mem _ (List.mem_append_left rest hc)

theorem query_standard (category : Query.Category) :
    standard.query category = .ok (some (Query.run category)) := by
  have hcompile : Language.standard.compile (Query.standardText category) =
      .ok (Query.run category) := by
    simp only [Language.standard, Query.compile?_standardText]
  have hloaded : standard.loaded = .ok Language.standard := rfl
  rw [query, queryText?_standard]
  simp only [hloaded, hcompile]

/-- Nothing is in the way of a standard query. -/
theorem obstacle?_standard (category : Query.Category) :
    standard.obstacle? category = none := by
  rw [obstacle?, query_standard]

/-- The matches of the standard grammar are those of the standard queries. -/
theorem found_standard (bytes : List UInt8) (root : Node) :
    standard.found bytes root = fun category => Query.run category bytes root := by
  funext category
  rw [found, query_standard]

end Grammar

end ShellSurvey
