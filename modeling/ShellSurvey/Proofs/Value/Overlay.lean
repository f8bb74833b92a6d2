import ShellSurvey.Proofs.Value.Proper
import ShellSurvey.Value.Overlay

/-!
# Overlaid data, path by path

Let proper fields `top` be put over any fields `base`. A name then stands for the value of `top`
overlaid on that of `base`, or for the value of `base` if `top` has none (`Fields.get?_overlay`).
Level by level this carries over to paths (`Fields.reach?_overlay`), except where `top` holds
something other than an object on the way: that cuts off what `base` holds behind it
(`Fields.reach?_overlay_of_cuts`).

`Fields.Overlaid` says what fields hold at every path and in which order they come.
-/

namespace ShellSurvey

namespace Value

/-- Anything but an object replaces what it is laid over. -/
theorem overlay_of_leaf {base top : Value} (h : top.fields? = none) : base.overlay top = top := by
  cases top with
  | object above => cases h
  | _ => rw [overlay]; simp

/-- Anything but an object is replaced by what is laid over it. -/
theorem overlay_on_leaf {base : Value} (h : base.fields? = none) (top : Value) :
    base.overlay top = top := by
  cases top with
  | object above =>
    cases base with
    | object below => cases h
    | _ => rw [overlay]; simp
  | _ => exact overlay_of_leaf rfl

theorem exists_object {value : Value} (h : value.fields? ≠ none) :
    ∃ fields, value = object fields := by
  cases value with
  | object fields => exact ⟨fields, rfl⟩
  | _ => exact absurd rfl h

theorem fields?_overlay_object (base : Value) (above : Fields) :
    (base.overlay (.object above)).fields? ≠ none := by
  by_cases hbase : base.fields? = none
  · rw [overlay_on_leaf hbase]
    exact Option.some_ne_none above
  · obtain ⟨below, rfl⟩ := exists_object hbase
    rw [overlay]
    exact Option.some_ne_none _

end Value

namespace Fields

variable {base top : Fields} {name : String} {path : List String} {value : Value}

/-! ### Overlaying by name -/

@[simp]
theorem overlay_nil (base : Fields) : base.overlay [] = base := by
  rw [overlay]

/-- Nothing at a name counts as null: whatever is put over it stands. -/
theorem overlayOne_eq (base : Fields) (field : String × Value) :
    base.overlayOne field =
      base.put field.1 (((base.get? field.1).getD .null).overlay field.2) := by
  rw [overlayOne]
  cases base.get? field.1 with
  | none => rw [Option.getD_none, Value.overlay_on_leaf rfl]
  | some old => rfl

theorem overlay_cons (base : Fields) (field : String × Value) (rest : Fields) :
    base.overlay (field :: rest) =
      (base.put field.1 (((base.get? field.1).getD .null).overlay field.2)).overlay rest := by
  rw [overlay, overlayOne_eq]

/-- Under each name the upper value is laid over the lower one; a name that only one layer has keeps
its value. -/
theorem get?_overlay (base : Fields) (h : top.names.Nodup) (name : String) :
    (base.overlay top).get? name =
      ((top.get? name).map fun value => ((base.get? name).getD .null).overlay value).or
        (base.get? name) := by
  induction top generalizing base with
  | nil => simp
  | cons field rest ih =>
    rw [names_cons, List.nodup_cons] at h
    rw [overlay_cons, ih _ h.2, get?_put, get?_cons]
    by_cases hname : field.1 = name
    · -- no later field of `top` has the name
      have hrest : get? rest name = none := get?_eq_none_iff.mpr (hname ▸ h.1)
      simp [hname, hrest]
    · simp [hname]

/-- The names of the upper layer follow those of the lower one, each once. -/
theorem names_overlay (base : Fields) (h : top.names.Nodup) :
    (base.overlay top).names = base.names ++ top.names.filter (· ∉ base.names) := by
  induction top generalizing base with
  | nil => simp [names]
  | cons field rest ih =>
    rw [names_cons, List.nodup_cons] at h
    rw [overlay_cons, ih _ h.2, names_put, names_cons]
    split_ifs with hmem
    · rw [List.filter_cons_of_neg (by simpa using hmem)]
    · have hrest : (names rest).filter (· ∉ base.names ++ [field.1]) =
          (names rest).filter (· ∉ base.names) := by
        refine List.filter_congr fun other hother => ?_
        have hne : other ≠ field.1 := ne_of_mem_of_not_mem hother h.1
        simp [hne]
      rw [hrest, List.filter_cons_of_pos (by simpa using hmem), List.append_assoc,
        List.singleton_append]

/-- The names are those of both layers. -/
theorem mem_names_overlay (base : Fields) (h : top.names.Nodup) :
    name ∈ (base.overlay top).names ↔ name ∈ base.names ∨ name ∈ top.names := by
  rw [names_overlay base h, List.mem_append, List.mem_filter]
  by_cases hbase : name ∈ base.names <;> simp [hbase]

/-! ### Identities -/

/-- Layers without a common name are put together. -/
theorem overlay_of_disjoint (h : top.names.Nodup)
    (hdisjoint : ∀ name ∈ top.names, name ∉ base.names) : base.overlay top = base ++ top := by
  induction top generalizing base with
  | nil => simp
  | cons field rest ih =>
    rw [names_cons, List.nodup_cons] at h
    have hfield : field.1 ∉ base.names := hdisjoint _ List.mem_cons_self
    have hput : base.put field.1 (((base.get? field.1).getD .null).overlay field.2) =
        base ++ [field] := by
      rw [get?_eq_none_iff.mpr hfield, Option.getD_none, Value.overlay_on_leaf rfl,
        put_of_notMem hfield]
    have hrest : ∀ name ∈ names rest, name ∉ names (base ++ [field]) := by
      intro name hname
      have hne : name ≠ field.1 := ne_of_mem_of_not_mem hname h.1
      have hbase : name ∉ base.names := hdisjoint _ (List.mem_cons_of_mem _ hname)
      rw [names, List.map_append, List.mem_append, not_or]
      exact ⟨hbase, by simpa using hne⟩
    rw [overlay_cons, hput, ih h.2 hrest, List.append_assoc, List.singleton_append]

theorem nil_overlay (h : top.names.Nodup) : overlay [] top = top :=
  overlay_of_disjoint h fun _ _ => List.not_mem_nil

/-- A layer that says nothing new changes nothing. -/
theorem overlay_of_agree
    (h : ∀ field ∈ top, base.get? field.1 = some field.2 ∧ field.2.overlay field.2 = field.2) :
    base.overlay top = base := by
  induction top with
  | nil => exact overlay_nil base
  | cons field rest ih =>
    obtain ⟨hget, hself⟩ := h field List.mem_cons_self
    rw [overlay_cons, hget, Option.getD_some, hself, put_of_get? hget]
    exact ih fun other hother => h other (List.mem_cons_of_mem _ hother)

/-- Laying fields over proper ones keeps them proper, if it does so for each value. -/
theorem Proper.overlay_of_values (h : base.Proper)
    (hvalues : ∀ field ∈ top, ∀ old : Value, old.Proper → (old.overlay field.2).Proper) :
    (base.overlay top).Proper := by
  induction top generalizing base with
  | nil => rwa [overlay_nil]
  | cons field rest ih =>
    have hold : ((base.get? field.1).getD .null).Proper := by
      rcases hget : base.get? field.1 with _ | old
      · exact .leaf rfl
      · exact h.of_get? hget
    rw [overlay_cons]
    exact ih (h.put (hvalues field List.mem_cons_self _ hold) _)
      fun other hother => hvalues other (List.mem_cons_of_mem _ hother)

end Fields

namespace Value

/-- An object goes over what is no object as over an object without fields. -/
theorem overlay_object (base : Value) {above : Fields} (h : above.names.Nodup) :
    base.overlay (.object above) = .object ((base.fields?.getD []).overlay above) := by
  by_cases hbase : base.fields? = none
  · rw [overlay_on_leaf hbase, hbase, Option.getD_none, Fields.nil_overlay h]
  · obtain ⟨below, rfl⟩ := exists_object hbase
    rw [overlay]
    rfl

/-- A proper value laid over itself is unchanged. -/
theorem overlay_self {value : Value} (h : value.Proper) : value.overlay value = value := by
  induction h with
  | leaf hleaf => exact overlay_of_leaf hleaf
  | @object fields hnodup _ ih =>
    have hfields : fields.overlay fields = fields :=
      Fields.overlay_of_agree fun field hfield =>
        ⟨Fields.get?_of_mem hnodup hfield, ih field hfield⟩
    rw [overlay_object _ hnodup]
    exact congrArg object hfields

theorem Proper.overlay {old value : Value} (h : value.Proper) (hold : old.Proper) :
    (old.overlay value).Proper := by
  induction h generalizing old with
  | leaf hleaf =>
    rw [overlay_of_leaf hleaf]
    exact .leaf hleaf
  | @object above hnodup _ ih =>
    have hbelow : (old.fields?.getD []).Proper := by
      cases old with
      | object below => exact proper_object_iff.mp hold
      | _ => exact Fields.proper_nil
    rw [overlay_object old hnodup]
    exact proper_object_iff.mpr (hbelow.overlay_of_values ih)

end Value

namespace Fields

variable {base top : Fields} {name : String} {path : List String} {value : Value}

theorem overlay_self (h : top.Proper) : top.overlay top = top :=
  overlay_of_agree fun field hfield =>
    ⟨get?_of_mem h.nodup hfield, Value.overlay_self (h.values field hfield)⟩

theorem Proper.overlay (h : base.Proper) (htop : top.Proper) : (base.overlay top).Proper :=
  h.overlay_of_values fun field hfield _ hold => (htop.values field hfield).overlay hold

/-! ### Descending by one name -/

/-- The fields of the object at a name; none if there is no object. -/
def below (fields : Fields) (name : String) : Fields :=
  ((fields.get? name).bind Value.fields?).getD []

theorem Proper.below {fields : Fields} (h : fields.Proper) (name : String) :
    (fields.below name).Proper := by
  rw [Fields.below]
  rcases hget : fields.get? name with _ | value
  · exact proper_nil
  · cases value with
    | object inner => exact Value.proper_object_iff.mp (h.of_get? hget)
    | _ => exact proper_nil

@[simp]
theorem reach?_single (fields : Fields) (name : String) :
    fields.reach? [name] = fields.get? name :=
  rfl

theorem nil_reach? (path : List String) : reach? [] path = none := by
  rcases path with _ | ⟨name, _ | ⟨next, rest⟩⟩ <;> rfl

theorem reach?_cons (fields : Fields) (name : String) {rest : List String} (h : rest ≠ []) :
    fields.reach? (name :: rest) = (fields.below name).reach? rest := by
  obtain ⟨next, rest, rfl⟩ := List.exists_cons_of_ne_nil h
  rw [reach?, below]
  · rcases fields.get? name with _ | value
    · exact (nil_reach? _).symm
    · cases value with
      | object inner => rfl
      | _ => exact (nil_reach? _).symm
  · simp

theorem getD_fields?_getD_get? (fields : Fields) (name : String) :
    ((fields.get? name).getD .null).fields?.getD [] = fields.below name := by
  rw [below]
  cases fields.get? name <;> rfl

/-- Where `top` holds nothing but an object, the objects at the name are overlaid. -/
theorem below_overlay (base : Fields) (h : top.Proper)
    (hobject : ∀ value, top.get? name = some value → value.fields? ≠ none) :
    (base.overlay top).below name = (base.below name).overlay (top.below name) := by
  rcases hget : top.get? name with _ | value
  · have htop : top.below name = [] := by rw [below, hget, Option.bind_none, Option.getD_none]
    rw [htop, overlay_nil, below, get?_overlay base h.nodup, hget, Option.map_none, Option.none_or,
      below]
  · obtain ⟨above, rfl⟩ := Value.exists_object (hobject value hget)
    have htop : top.below name = above := by rw [below, hget]; rfl
    have habove : Proper above := Value.proper_object_iff.mp (h.of_get? hget)
    rw [htop, below, get?_overlay base h.nodup, hget, Option.map_some, Option.some_or,
      Value.overlay_object _ habove.nodup, getD_fields?_getD_get?]
    rfl

/-- Nothing is left below a name whose upper value is no object. -/
theorem below_overlay_of_leaf (base : Fields) (h : top.Proper) (hget : top.get? name = some value)
    (hleaf : value.fields? = none) : (base.overlay top).below name = [] := by
  rw [below, get?_overlay base h.nodup, hget]
  simp [Value.overlay_of_leaf hleaf, hleaf]

/-! ### Overlaying by path -/

/-- What is reached in proper fields is proper. -/
theorem Proper.of_reach? (h : top.Proper) {inner : Fields}
    (hreach : top.reach? path = some (.object inner)) : inner.Proper := by
  induction path generalizing top with
  | nil => cases hreach
  | cons name rest ih =>
    by_cases hrest : rest = []
    · subst hrest
      exact Value.proper_object_iff.mp (h.of_get? hreach)
    · rw [reach?_cons _ _ hrest] at hreach
      exact ih (h.below name) hreach

/-- Whether something other than an object stands before the end of a path. -/
def Cuts (fields : Fields) (path : List String) : Prop :=
  ∃ front value, front ≠ [] ∧ front <+: path ∧ front ≠ path ∧
    fields.reach? front = some value ∧ value.fields? = none

theorem not_cuts_single {fields : Fields} : ¬fields.Cuts [name] := by
  rintro ⟨front, value, hne, hpre, hproper, -⟩
  exact hproper (hpre.eq_of_length_le (List.length_pos_of_ne_nil hne))

/-- A path is cut off at its first name or further below. -/
theorem cuts_cons_iff {fields : Fields} {rest : List String} (h : rest ≠ []) :
    fields.Cuts (name :: rest) ↔
      (∃ value, fields.get? name = some value ∧ value.fields? = none) ∨
        (fields.below name).Cuts rest := by
  constructor
  · rintro ⟨front, value, hne, hpre, hproper, hreach, hleaf⟩
    obtain ⟨first, front, rfl⟩ := List.exists_cons_of_ne_nil hne
    obtain ⟨rfl, hfrontRest⟩ := List.cons_prefix_cons.mp hpre
    by_cases hfront : front = []
    · subst hfront
      exact .inl ⟨value, hreach, hleaf⟩
    · rw [reach?_cons fields first hfront] at hreach
      exact .inr ⟨front, value, hfront, hfrontRest, fun heq => hproper (heq ▸ rfl), hreach, hleaf⟩
  · rintro (⟨value, hget, hleaf⟩ | ⟨front, value, hne, hpre, hproper, hreach, hleaf⟩)
    · refine ⟨[name], value, by simp, by simp, ?_, hget, hleaf⟩
      simpa using h.symm
    · refine ⟨name :: front, value, by simp, List.cons_prefix_cons.mpr ⟨rfl, hpre⟩, ?_, ?_, hleaf⟩
      · simpa using hproper
      · rw [reach?_cons fields name hne, hreach]

/-- A path along which something is reached is not cut off. -/
theorem not_cuts_of_reach? {fields : Fields} (h : fields.reach? path = some value) :
    ¬fields.Cuts path := by
  induction path generalizing fields with
  | nil => cases h
  | cons name rest ih =>
    by_cases hrest : rest = []
    · subst hrest
      exact not_cuts_single
    · rw [reach?_cons _ _ hrest] at h
      rw [cuts_cons_iff hrest]
      rintro (⟨leaf, hget, hleaf⟩ | hcuts)
      · -- there is nothing below what is no object
        rw [below, hget, Option.bind_some, hleaf, Option.getD_none, nil_reach?] at h
        cases h
      · exact ih h hcuts

/-- Along a path that `top` does not cut, overlaying is as it is for names. -/
theorem reach?_overlay (base : Fields) (h : top.Proper) (hcuts : ¬top.Cuts path) :
    (base.overlay top).reach? path =
      ((top.reach? path).map fun value => ((base.reach? path).getD .null).overlay value).or
        (base.reach? path) := by
  induction path generalizing base top with
  | nil => rfl
  | cons name rest ih =>
    by_cases hrest : rest = []
    · subst hrest
      exact get?_overlay base h.nodup name
    · rw [cuts_cons_iff hrest, not_or] at hcuts
      have hobject : ∀ value, top.get? name = some value → value.fields? ≠ none :=
        fun value hget hleaf => hcuts.1 ⟨value, hget, hleaf⟩
      simp only [reach?_cons _ _ hrest, below_overlay base h hobject]
      exact ih (base.below name) (h.below name) hcuts.2

/-- What the upper layer has at a path is laid over what the lower one has there. -/
theorem reach?_overlay_of_some (base : Fields) (h : top.Proper)
    (hreach : top.reach? path = some value) :
    (base.overlay top).reach? path = some (((base.reach? path).getD .null).overlay value) := by
  rw [reach?_overlay base h (not_cuts_of_reach? hreach), hreach, Option.map_some, Option.some_or]

/-- Nothing is reached at a path that the upper layer cuts off. -/
theorem reach?_overlay_of_cuts (base : Fields) (h : top.Proper) (hcuts : top.Cuts path) :
    (base.overlay top).reach? path = none := by
  induction path generalizing base top with
  | nil => rfl
  | cons name rest ih =>
    have hrest : rest ≠ [] := by
      rintro rfl
      exact not_cuts_single hcuts
    rw [reach?_cons _ _ hrest]
    by_cases hleaf : ∃ value, top.get? name = some value ∧ value.fields? = none
    · obtain ⟨value, hget, hleaf⟩ := hleaf
      rw [below_overlay_of_leaf base h hget hleaf, nil_reach?]
    · have hobject : ∀ value, top.get? name = some value → value.fields? ≠ none :=
        fun value hget hnone => hleaf ⟨value, hget, hnone⟩
      have hbelow : (top.below name).Cuts rest :=
        ((cuts_cons_iff hrest).mp hcuts).resolve_left hleaf
      rw [below_overlay base h hobject]
      exact ih (base.below name) (h.below name) hbelow

/-- What fields hold at every path, and in which order, if `top` went over `base`. -/
structure Overlaid (base top merged : Fields) : Prop where
  /-- What is no object in `top` stands. -/
  leaf : ∀ path value, top.reach? path = some value → value.fields? = none →
    merged.reach? path = some value
  /-- An object of `top` goes over an object of `base`. -/
  both : ∀ (path : List String) (below above : Fields),
    base.reach? path = some (.object below) → top.reach? path = some (.object above) →
    merged.reach? path = some (.object (below.overlay above))
  /-- An object of `top` replaces what is no object in `base`, or nothing. -/
  above : ∀ path above, (base.reach? path).bind Value.fields? = none →
    top.reach? path = some (.object above) → merged.reach? path = some (.object above)
  /-- What `top` cuts off is lost. -/
  cut : ∀ path, top.reach? path = none → top.Cuts path → merged.reach? path = none
  /-- Anything else is as in `base`. -/
  kept : ∀ path, top.reach? path = none → ¬top.Cuts path →
    merged.reach? path = base.reach? path
  /-- The names of `base` come first, then the new ones of `top`. -/
  names : merged.names = base.names ++ top.names.filter (· ∉ base.names)
  /-- So they do in objects that went over objects, however deep. -/
  innerNames : ∀ (path : List String) (below above inner : Fields),
    base.reach? path = some (.object below) → top.reach? path = some (.object above) →
    merged.reach? path = some (.object inner) →
    inner.names = below.names ++ above.names.filter (· ∉ below.names)

/-- **Overlaying is overriding path by path.** Proper fields go over any fields value by value;
fields without a field change nothing, on either side, and neither do the fields themselves. -/
theorem overlay_pathwise (base : Fields) (h : top.Proper) :
    Overlaid base top (base.overlay top) ∧
      base.overlay [] = base ∧ overlay [] top = top ∧ top.overlay top = top := by
  refine ⟨?_, overlay_nil base, nil_overlay h.nodup, overlay_self h⟩
  have hboth : ∀ (path : List String) (below above : Fields),
      base.reach? path = some (.object below) → top.reach? path = some (.object above) →
      (base.overlay top).reach? path = some (.object (below.overlay above)) := by
    intro path below above hbase htop
    have habove : above.names.Nodup := (h.of_reach? htop).nodup
    rw [reach?_overlay_of_some base h htop, hbase, Option.getD_some,
      Value.overlay_object _ habove]
    rfl
  exact {
    leaf := by
      intro path value htop hleaf
      rw [reach?_overlay_of_some base h htop, Value.overlay_of_leaf hleaf]
    both := hboth
    above := by
      intro path above hbase htop
      have hleaf : ((base.reach? path).getD .null).fields? = none := by
        cases hreach : base.reach? path with
        | none => rfl
        | some value => rwa [hreach] at hbase
      rw [reach?_overlay_of_some base h htop, Value.overlay_on_leaf hleaf]
    cut := fun path _ hcuts => reach?_overlay_of_cuts base h hcuts
    kept := by
      intro path htop hcuts
      rw [reach?_overlay base h hcuts, htop, Option.map_none, Option.none_or]
    names := names_overlay base h.nodup
    innerNames := by
      intro path below above inner hbase htop hmerged
      have hinner : inner = below.overlay above := by
        simpa [hboth path below above hbase htop] using hmerged.symm
      rw [hinner, names_overlay below (h.of_reach? htop).nodup] }

/-- Fields with an object inside an object, next to a plain value. -/
def plainBase : Fields :=
  [("a", .object [("x", .int 1), ("y", .object [("z", .int 2)])]), ("b", .int 3),
    ("c", .object [("k", .int 4)])]

/-- Fields that meet those of `plainBase` at all levels: an object where there is a plain value
and a plain value where there is an object. -/
def contraryTop : Fields :=
  [("c", .text "off"), ("b", .object [("m", .int 5)]), ("d", .null),
    ("a", .object [("y", .object [("w", .int 6)])])]

theorem proper_contraryTop : contraryTop.Proper := by
  have hsingle : ∀ name value, Value.Proper value → (Value.object [(name, value)]).Proper := by
    intro name value hvalue
    refine .object (List.nodup_singleton name) fun field hfield => ?_
    rwa [List.mem_singleton.mp hfield]
  refine ⟨by decide, fun field hfield => ?_⟩
  simp only [contraryTop, List.mem_cons, List.not_mem_nil, or_false] at hfield
  rcases hfield with rfl | rfl | rfl | rfl
  · exact .leaf rfl
  · exact hsingle _ _ (.leaf rfl)
  · exact .leaf rfl
  · exact hsingle _ _ (hsingle _ _ (.leaf rfl))

/-- The upper layer replaces a value, cuts off what is below, joins an object or leaves it alone. -/
theorem overlay_pathwise_contrary :
    contraryTop.Proper ∧
      (plainBase.overlay contraryTop).reach? ["c"] = some (.text "off") ∧
      (plainBase.overlay contraryTop).reach? ["c", "k"] = none ∧
      (plainBase.overlay contraryTop).reach? ["b"] = some (.object [("m", .int 5)]) ∧
      (plainBase.overlay contraryTop).reach? ["a", "y"] =
        some (.object (overlay [("z", .int 2)] [("w", .int 6)])) ∧
      (plainBase.overlay contraryTop).reach? ["a", "x"] = some (.int 1) ∧
      (plainBase.overlay contraryTop).names = ["a", "b", "c", "d"] := by
  have h := (overlay_pathwise plainBase proper_contraryTop).1
  have hcut : contraryTop.Cuts ["c", "k"] :=
    ⟨["c"], .text "off", by decide, by decide, by decide, rfl, rfl⟩
  have hclear : ¬contraryTop.Cuts ["a", "x"] := by
    rw [cuts_cons_iff (by decide)]
    rintro (⟨value, hget, hleaf⟩ | hcuts)
    · obtain rfl := Option.some.inj hget
      cases hleaf
    · exact not_cuts_single hcuts
  exact ⟨proper_contraryTop, h.leaf _ _ rfl rfl, h.cut _ rfl hcut, h.above _ _ rfl rfl,
    h.both _ _ _ rfl rfl, h.kept _ rfl hclear, h.names⟩

end Fields

end ShellSurvey
