import Mathlib.Data.List.Nodup
import ShellSurvey.Value.Basic

/-!
# Proper data

Fields are looked up by name and put in place (`Fields.get?_put`, `Fields.names_put`); of several
values for a name the last one stays (`Fields.get?_putAll`). They are proper if no name comes twice,
neither among them nor in the objects inside. Putting a proper value keeps fields proper, and so
fields put one after the other always are.
-/

namespace ShellSurvey

/-- Whether no name comes twice in an object, nor in the objects among its values. -/
inductive Value.Proper : Value → Prop
  | leaf {value : Value} : value.fields? = none → Proper value
  | object {fields : Fields} :
      fields.names.Nodup → (∀ field ∈ fields, Proper field.2) → Proper (.object fields)

namespace Fields

variable {fields more : Fields} {field : String × Value} {name other : String} {value : Value}

/-! ### Fields by name -/

@[simp]
theorem get?_nil (name : String) : get? [] name = none :=
  rfl

theorem get?_cons (field : String × Value) (rest : Fields) (name : String) :
    get? (field :: rest) name = if field.1 = name then some field.2 else rest.get? name := by
  by_cases h : field.1 = name <;> simp [get?, h]

theorem get?_append (fields more : Fields) (name : String) :
    get? (fields ++ more) name = (fields.get? name).or (more.get? name) := by
  induction fields with
  | nil => rfl
  | cons first rest ih =>
    rw [List.cons_append, get?_cons, get?_cons, ih]
    split_ifs <;> rfl

theorem names_cons (field : String × Value) (rest : Fields) :
    names (field :: rest) = field.1 :: rest.names :=
  rfl

/-- A name has no value just if it is not among the names. -/
theorem get?_eq_none_iff : fields.get? name = none ↔ name ∉ fields.names := by
  induction fields with
  | nil => simp [names]
  | cons first rest ih =>
    rw [get?_cons, names_cons, List.mem_cons]
    by_cases hfirst : first.1 = name
    · simp [hfirst]
    · have hne : name ≠ first.1 := fun h => hfirst h.symm
      simp [hfirst, hne, ih]

theorem mem_of_get? (h : fields.get? name = some value) : (name, value) ∈ fields := by
  obtain ⟨field, hfind, rfl⟩ := Option.map_eq_some_iff.mp h
  have hname : field.1 = name := by simpa using List.find?_some hfind
  rw [← hname]
  exact List.mem_of_find?_eq_some hfind

/-- If no name is there twice, every field is found under its name. -/
theorem get?_of_mem (hnodup : fields.names.Nodup) (h : field ∈ fields) :
    fields.get? field.1 = some field.2 := by
  induction fields with
  | nil => cases h
  | cons first rest ih =>
    rw [names_cons, List.nodup_cons] at hnodup
    rw [get?_cons]
    rcases List.mem_cons.mp h with rfl | h
    · rw [if_pos rfl]
    · have hne : first.1 ≠ field.1 := by
        intro heq
        exact hnodup.1 (heq ▸ List.mem_map_of_mem h)
      rw [if_neg hne, ih hnodup.2 h]

/-! ### Putting fields -/

/-- Putting a value changes the value of its name only. -/
theorem get?_put (fields : Fields) (name other : String) (value : Value) :
    (fields.put name value).get? other =
      if name = other then some value else fields.get? other := by
  induction fields with
  | nil => simp [put, get?_cons]
  | cons first rest ih =>
    rw [put]
    split_ifs with hfirst hother hother
    · rw [get?_cons, if_pos hother]
    · rw [get?_cons, get?_cons, if_neg hother, if_neg (hfirst ▸ hother)]
    · rw [get?_cons, if_neg (hother ▸ hfirst), ih, if_pos hother]
    · rw [get?_cons, get?_cons, ih, if_neg hother]

/-- A name that is there already keeps its place. -/
theorem names_put (fields : Fields) (name : String) (value : Value) :
    (fields.put name value).names =
      if name ∈ fields.names then fields.names else fields.names ++ [name] := by
  induction fields with
  | nil => simp [put, names]
  | cons first rest ih =>
    rw [put, names_cons]
    by_cases hfirst : first.1 = name
    · rw [if_pos hfirst, names_cons, hfirst, if_pos List.mem_cons_self]
    · have hmem : name ∈ first.1 :: names rest ↔ name ∈ names rest := by
        simp [show name ≠ first.1 from fun h => hfirst h.symm]
      rw [if_neg hfirst, names_cons, ih]
      simp only [hmem]
      split_ifs <;> rfl

theorem nodup_names_put (h : fields.names.Nodup) (name : String) (value : Value) :
    (fields.put name value).names.Nodup := by
  rw [names_put]
  split_ifs with hmem
  · exact h
  · refine List.nodup_append.mpr ⟨h, List.nodup_singleton name, ?_⟩
    intro a ha b hb
    rw [List.mem_singleton.mp hb]
    exact ne_of_mem_of_not_mem ha hmem

/-- Putting the value that is there changes nothing. -/
theorem put_of_get? (h : fields.get? name = some value) : fields.put name value = fields := by
  induction fields with
  | nil => cases h
  | cons first rest ih =>
    rw [get?_cons] at h
    rw [put]
    split_ifs at h ⊢ with hfirst
    · obtain rfl := hfirst
      rw [← Option.some.inj h]
    · rw [ih h]

theorem put_of_notMem (h : name ∉ fields.names) :
    fields.put name value = fields ++ [(name, value)] := by
  induction fields with
  | nil => rfl
  | cons first rest ih =>
    rw [names_cons, List.mem_cons, not_or] at h
    rw [put, if_neg fun heq => h.1 heq.symm, ih h.2, List.cons_append]

theorem eq_or_mem_of_mem_put (h : field ∈ fields.put name value) :
    field = (name, value) ∨ field ∈ fields := by
  induction fields with
  | nil => exact .inl (List.mem_singleton.mp h)
  | cons first rest ih =>
    rw [put] at h
    split_ifs at h with hfirst
    · exact (List.mem_cons.mp h).imp_right (List.mem_cons_of_mem _)
    · rcases List.mem_cons.mp h with rfl | h
      · exact .inr List.mem_cons_self
      · exact (ih h).imp_right (List.mem_cons_of_mem _)

/-! ### Putting several fields -/

/-- Of several values that are put for a name, the last one stays. -/
theorem get?_putAll (fields more : Fields) (name : String) :
    (fields.putAll more).get? name = (get? more.reverse name).or (fields.get? name) := by
  induction more generalizing fields with
  | nil => rfl
  | cons first rest ih =>
    have hput : (fields.put first.1 first.2).get? name =
        (get? [first] name).or (fields.get? name) := by
      rw [get?_put, get?_cons]
      split_ifs <;> rfl
    calc (fields.putAll (first :: rest)).get? name
        = (get? rest.reverse name).or ((fields.put first.1 first.2).get? name) := ih _
      _ = (get? (first :: rest).reverse name).or (fields.get? name) := by
        rw [hput, List.reverse_cons, get?_append, Option.or_assoc]

/-- Of several values under one name the last one counts. -/
theorem get?_distinct (fields : Fields) (name : String) :
    fields.distinct.get? name = get? fields.reverse name := by
  rw [distinct, get?_putAll, get?_nil, Option.or_none]

theorem nodup_names_putAll (h : fields.names.Nodup) (more : Fields) :
    (fields.putAll more).names.Nodup := by
  induction more generalizing fields with
  | nil => exact h
  | cons first rest ih => exact ih (nodup_names_put h first.1 first.2)

/-! ### Proper fields -/

/-- Whether no name comes twice, nor in the objects among the values. -/
structure Proper (fields : Fields) : Prop where
  nodup : fields.names.Nodup
  values : ∀ field ∈ fields, field.2.Proper

theorem proper_nil : Proper [] :=
  ⟨List.nodup_nil, fun _ h => by cases h⟩

theorem Proper.of_get? (h : fields.Proper) (hget : fields.get? name = some value) :
    value.Proper :=
  h.values _ (mem_of_get? hget)

theorem Proper.put (h : fields.Proper) (hvalue : value.Proper) (name : String) :
    (fields.put name value).Proper := by
  refine ⟨nodup_names_put h.nodup name value, ?_⟩
  intro field hfield
  rcases eq_or_mem_of_mem_put hfield with rfl | hfield
  · exact hvalue
  · exact h.values field hfield

theorem Proper.putAll (h : fields.Proper) (hmore : ∀ field ∈ more, field.2.Proper) :
    (fields.putAll more).Proper := by
  induction more generalizing fields with
  | nil => exact h
  | cons field rest ih =>
    have hput : (fields.put field.1 field.2).Proper :=
      h.put (hmore field List.mem_cons_self) field.1
    exact ih hput fun other hother => hmore other (List.mem_cons_of_mem _ hother)

/-- Fields with proper values are proper once their names are told apart. -/
theorem proper_distinct (h : ∀ field ∈ fields, field.2.Proper) : fields.distinct.Proper :=
  proper_nil.putAll h

end Fields

/-- An object is proper just if its fields are. -/
theorem Value.proper_object_iff {fields : Fields} : (object fields).Proper ↔ fields.Proper := by
  constructor
  · intro h
    cases h with
    | leaf h => cases h
    | object hnodup hvalues => exact ⟨hnodup, hvalues⟩
  · intro h
    exact .object h.nodup h.values

end ShellSurvey
