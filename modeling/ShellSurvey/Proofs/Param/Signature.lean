import ShellSurvey.Param.Basic
import ShellSurvey.Proofs.Param.Scan

/-!
# Signatures

The parameters of a body are a summary of its references: the highest index, for each index the
first default text that is not empty, and the first marker for all remaining arguments. The
summary is made in one pass over the references; here each of its three parts is read off the
whole list, and `infer_eq` puts them together.
-/

namespace ShellSurvey.Param

/-! ### What a list of references says -/

/-- The index of a reference. -/
def Reference.index? : Reference → Option Nat
  | .positional n _ => some n
  | .rest _ => none

/-- The marker of a reference. -/
def Reference.marker? : Reference → Option RestMarker
  | .positional _ _ => none
  | .rest m => some m

/-- The default text that a reference gives to the parameter of an index. An empty one counts as
none. -/
def Reference.defaultFor? (i : Nat) : Reference → Option (List Char)
  | .positional n (some text) => if n = i ∧ text ≠ [] then some text else none
  | _ => none

/-- The highest index among references; zero if there is none. -/
def highestIndex (references : List Reference) : Nat :=
  (references.filterMap Reference.index?).max?.getD 0

/-- The first default text for an index. -/
def firstDefault? (references : List Reference) (i : Nat) : Option (List Char) :=
  references.findSome? (Reference.defaultFor? i)

/-- The first marker. -/
def firstMarker? (references : List Reference) : Option RestMarker :=
  references.findSome? Reference.marker?

theorem highestIndex_cons (r : Reference) (references : List Reference) :
    highestIndex (r :: references) = max (r.index?.getD 0) (highestIndex references) := by
  rw [highestIndex, highestIndex]
  cases h : r.index? with
  | none => rw [List.filterMap_cons_none h, Option.getD_none, Nat.zero_max]
  | some n =>
    rw [List.filterMap_cons_some h, List.max?_cons, Option.getD_some, Option.getD_some]
    cases (references.filterMap Reference.index?).max? with
    | none => rw [Option.elim_none, Option.getD_none, Nat.max_zero]
    | some m => rw [Option.elim_some, Option.getD_some]

theorem highestIndex_lt_iff {references : List Reference} {bound : Nat} (hpos : 0 < bound) :
    highestIndex references < bound ↔ ∀ r ∈ references, ∀ n ∈ r.index?, n < bound := by
  induction references with
  | nil => simp [highestIndex, hpos]
  | cons r references ih =>
    rw [highestIndex_cons, Nat.max_lt, ih, List.forall_mem_cons]
    cases r.index? <;> simp [hpos]

/-- The highest index is the least bound of all indices. -/
theorem highestIndex_le_iff {references : List Reference} {bound : Nat} :
    highestIndex references ≤ bound ↔ ∀ r ∈ references, ∀ n ∈ r.index?, n ≤ bound := by
  simpa only [Nat.lt_succ_iff] using highestIndex_lt_iff (Nat.succ_pos bound)

/-- An empty default counts as none. -/
theorem defaultFor?_eq_some_iff {i : Nat} {r : Reference} {text : List Char} :
    r.defaultFor? i = some text ↔ text ≠ [] ∧ r = .positional i (some text) := by
  cases r with
  | rest m => simp [Reference.defaultFor?]
  | positional n given =>
    cases given with
    | none => simp [Reference.defaultFor?]
    | some given =>
      simp only [Reference.defaultFor?, Option.ite_none_right_eq_some, Option.some_inj,
        Reference.positional.injEq]
      constructor
      · rintro ⟨⟨rfl, hne⟩, rfl⟩
        exact ⟨hne, rfl, rfl⟩
      · rintro ⟨hne, rfl, rfl⟩
        exact ⟨⟨rfl, hne⟩, rfl⟩

/-- An index has a default text if some reference to it has one that is not empty. -/
theorem isSome_firstDefault?_iff {references : List Reference} {i : Nat} :
    (firstDefault? references i).isSome ↔
      ∃ text, text ≠ [] ∧ Reference.positional i (some text) ∈ references := by
  rw [firstDefault?, List.findSome?_isSome_iff]
  constructor
  · rintro ⟨r, hr, hsome⟩
    obtain ⟨text, htext⟩ := Option.isSome_iff_exists.mp hsome
    obtain ⟨hne, rfl⟩ := defaultFor?_eq_some_iff.mp htext
    exact ⟨text, hne, hr⟩
  · rintro ⟨text, hne, hr⟩
    exact ⟨_, hr, Option.isSome_of_eq_some (defaultFor?_eq_some_iff.mpr ⟨hne, rfl⟩)⟩

/-! ### One pass over the references -/

namespace Signature

theorem add_count (s : Signature) (r : Reference) :
    (s.add r).count = max s.count (r.index?.getD 0) := by
  cases r with
  | rest m => simp [add, Reference.index?]
  | positional n text => cases text <;> rfl

theorem add_rest (s : Signature) (r : Reference) : (s.add r).rest = s.rest.or r.marker? := by
  cases r with
  | rest m => rfl
  | positional n text => cases text <;> simp [add, Reference.marker?]

theorem add_fallback? (s : Signature) (r : Reference) (i : Nat) :
    (s.add r).fallback? i = (s.fallback? i).or (r.defaultFor? i) := by
  cases r with
  | rest m => simp [add, fallback?, Reference.defaultFor?]
  | positional n text =>
    cases text with
    | none => simp [add, fallback?, Reference.defaultFor?]
    | some text =>
      have hadd : (s.add (.positional n (some text))).fallback? i =
          if text.isEmpty || (s.fallback? n).isSome then s.fallback? i
          else (s.fallback? i).or (if n = i then some text else none) := by
        simp only [add, fallback?]
        split_ifs <;> simp_all [List.find?_append, Option.map_or]
      rw [hadd, Reference.defaultFor?]
      by_cases htext : text = []
      · simp [htext]
      · by_cases hn : n = i
        · subst hn
          cases h : s.fallback? n <;> simp [htext]
        · simp [hn]

/-- What a pass over references makes of what was known before. -/
theorem foldl_add (references : List Reference) (s : Signature) :
    (references.foldl add s).count = max s.count (highestIndex references) ∧
      (∀ i, (references.foldl add s).fallback? i =
        (s.fallback? i).or (firstDefault? references i)) ∧
      (references.foldl add s).rest = s.rest.or (firstMarker? references) := by
  induction references generalizing s with
  | nil => simp [highestIndex, firstDefault?, firstMarker?]
  | cons r references ih =>
    obtain ⟨hcount, hfallback, hrest⟩ := ih (s.add r)
    refine ⟨?_, fun i => ?_, ?_⟩
    · rw [List.foldl_cons, hcount, add_count, highestIndex_cons, Nat.max_assoc]
    · rw [List.foldl_cons, hfallback, add_fallback?, Option.or_assoc, firstDefault?,
        firstDefault?, List.findSome?_cons]
      cases r.defaultFor? i <;> rfl
    · rw [List.foldl_cons, hrest, add_rest, Option.or_assoc, firstMarker?, firstMarker?,
        List.findSome?_cons]
      cases r.marker? <;> rfl

/-- There are as many parameters as the highest index says. -/
theorem ofReferences_count (references : List Reference) :
    (ofReferences references).count = highestIndex references := by
  rw [ofReferences, (foldl_add references {}).1, Nat.zero_max]

/-- The default of an index is the first one that is given for it. -/
theorem ofReferences_fallback? (references : List Reference) (i : Nat) :
    (ofReferences references).fallback? i = firstDefault? references i := by
  rw [ofReferences, (foldl_add references {}).2.1]
  rfl

/-- The first marker says what the remaining arguments are called. -/
theorem ofReferences_rest (references : List Reference) :
    (ofReferences references).rest = firstMarker? references := by
  rw [ofReferences, (foldl_add references {}).2.2]
  rfl

end Signature

/-! ### The parameters of a body -/

/-- The parameters that references imply: `$1` up to the highest index, and the one for all
remaining arguments if there is a marker. -/
def paramsOf (references : List Reference) : List Param :=
  (List.range' 1 (highestIndex references)).map (fun i =>
    { name := "$" ++ toString i
      optional := (firstDefault? references i).isSome
      rest := false
      fallback := (firstDefault? references i).map String.ofList }) ++
  ((firstMarker? references).map fun m =>
    { name := String.ofList ['$', m.char], optional := true, rest := true,
      fallback := none }).toList

theorem ofList_dollar_numeral (i : Nat) :
    String.ofList ('$' :: Text.Numeral.ofNat i) = "$" ++ toString i := by
  rw [← List.singleton_append, String.ofList_append]
  rfl

/-- The parameters can be told from the references without reading them in order. -/
theorem params_ofReferences (references : List Reference) :
    (Signature.ofReferences references).params = paramsOf references := by
  rw [Signature.params, Signature.ofReferences_rest, Signature.ofReferences_count, paramsOf,
    List.range'_eq_map_range, List.map_map]
  congr 1
  refine List.map_congr_left fun i _ => ?_
  simp only [Signature.positional, Signature.ofReferences_fallback?, ofList_dollar_numeral,
    Function.comp_apply, Nat.add_comm]

/-- A positional parameter is optional if some reference to it has a default text that is not
empty. -/
theorem optional_of_mem_paramsOf {references : List Reference} {p : Param}
    (h : p ∈ paramsOf references) (hp : p.rest = false) :
    ∃ i, p.name = "$" ++ toString i ∧ (p.optional ↔
      ∃ text, text ≠ [] ∧ Reference.positional i (some text) ∈ references) := by
  rcases List.mem_append.mp h with hpos | hrest
  · obtain ⟨i, -, rfl⟩ := List.mem_map.mp hpos
    exact ⟨i, rfl, isSome_firstDefault?_iff⟩
  · obtain ⟨m, -, rfl⟩ := Option.map_eq_some_iff.mp (Option.mem_toList.mp hrest)
    cases hp

/-- **The parameters of a body summarise its leftmost tokens.** What is found are exactly the
leftmost tokens; the parameters are `$1` up to the highest index referred to, gaps filled, and one
more if there is a marker; and a positional one is optional if some reference to it has a default
text that is not empty. -/
theorem infer_leftmost (body : List Char) :
    (∀ found, Leftmost body found ↔ found = scanOnce body) ∧
      infer body = paramsOf ((scanOnce body).map (·.reference)) ∧
      ∀ p ∈ infer body, p.rest = false → ∃ i, p.name = "$" ++ toString i ∧ (p.optional ↔
        ∃ text, text ≠ [] ∧
          Reference.positional i (some text) ∈ (scanOnce body).map (·.reference)) := by
  have hparams : infer body = paramsOf ((scanOnce body).map (·.reference)) :=
    params_ofReferences _
  refine ⟨fun _ => leftmost_iff, hparams, fun p hp hrest => ?_⟩
  rw [hparams] at hp
  exact optional_of_mem_paramsOf hp hrest

end ShellSurvey.Param
