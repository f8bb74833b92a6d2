import ShellSurvey.Proofs.Value.Documents
import ShellSurvey.Proofs.Value.Overlay
import ShellSurvey.Settings.Load

/-!
# Layers of settings

Settings are loaded from layers: what the caller gives, the environment, and two files. Readers of
files and environments are proper if no name comes twice in what they read. Then so are the layers
that are read, whatever they were read from; and the standard readers are proper
(`Readers.proper_standard`).
-/

namespace ShellSurvey.Settings

open Fields (Proper)

/-! ### Files -/

/-- Readers of proper data. -/
structure Readers.Proper (readers : Readers) : Prop where
  document : ∀ {text value}, readers.document text = some value → value.Proper
  environment : ∀ {environment fields}, readers.environment environment = .ok fields →
    Fields.Proper fields

/-- What proper readers read in a file is proper. -/
theorem SettingsFile.proper_of_read {file : SettingsFile} {readers : Readers} {fields : Fields}
    (hreaders : readers.Proper) (h : file.read readers = .ok fields) : fields.Proper := by
  rw [read] at h
  split at h
  · obtain rfl := Except.ok.inj h
    exact Fields.proper_nil
  · split at h
    · cases h
    · next value hparse =>
      split_ifs at h
      · obtain rfl := Except.ok.inj h
        exact Fields.proper_nil
      · split at h
        · obtain rfl := Except.ok.inj h
          exact Value.proper_object_iff.mp (hreaders.document hparse)
        · cases h

/-! ### The environment -/

theorem proper_putPath {fields : Fields} (h : fields.Proper) {value : Value} (hvalue : value.Proper)
    (path : List String) : (putPath fields path value).Proper := by
  fun_induction putPath fields path value with
  | case1 fields => exact h
  | case2 fields name => exact h.put hvalue name
  | case3 fields name rest _ _ ih =>
    exact h.put (Value.proper_object_iff.mpr (ih Fields.proper_nil)) name
  | case4 fields name rest _ inner hget ih =>
    have hinner : Proper inner := Value.proper_object_iff.mp (h.of_get? hget)
    exact h.put (Value.proper_object_iff.mpr (ih hinner)) name
  | case5 fields => exact h

theorem proper_of_singleValue? {record text : String} {path : List String} {value : Value}
    (h : singleValue? record path text = some value) : value.Proper := by
  rw [singleValue?] at h
  split_ifs at h
  · exact Json.proper_of_parse? h
  · obtain rfl := Option.some.inj h
    exact .leaf rfl

theorem proper_of_singles? {record : String} {environment : Environment} {fields : Fields}
    (h : singles? record environment = some fields) : fields.Proper := by
  -- one variable after the other: each puts one value at a path
  have hall : ∀ fields ∈ singles? record environment, Proper fields := by
    rw [singles?]
    refine List.foldlRecOn (motive := fun acc => ∀ fields ∈ acc, Proper fields) environment _ ?_ ?_
    · rintro _ ⟨⟩
      exact Fields.proper_nil
    · intro acc hacc entry _ after hafter
      obtain ⟨before, hbefore, hstep⟩ := Option.bind_eq_some_iff.mp hafter
      have hproper : before.Proper := hacc before hbefore
      split_ifs at hstep
      · split at hstep
        · split_ifs at hstep
          · obtain ⟨value, hvalue, rfl⟩ := Option.map_eq_some_iff.mp hstep
            exact proper_putPath hproper (proper_of_singleValue? hvalue) _
          · exact Option.some.inj hstep ▸ hproper
        · exact Option.some.inj hstep ▸ hproper
      · exact Option.some.inj hstep ▸ hproper
  exact hall fields h

theorem proper_canonical (record : String) {fields : Fields} (h : fields.Proper) :
    (canonical record fields).Proper := by
  rw [canonical]
  refine List.foldlRecOn (motive := Proper) fields _ Fields.proper_nil ?_
  intro acc hacc entry hentry
  have hvalue : entry.2.Proper := h.values entry hentry
  dsimp only
  split
  · exact hacc.put hvalue _
  · exact hacc.put hvalue _

theorem proper_of_recordValue? {record : String} {environment : Environment} {value : Value}
    (h : recordValue? record environment = some (some value)) : value.Proper := by
  rw [recordValue?] at h
  split at h
  · obtain ⟨fields, hfields, hvalue⟩ := Option.map_eq_some_iff.mp h
    split_ifs at hvalue
    obtain rfl := Option.some.inj hvalue
    exact Value.proper_object_iff.mpr (proper_canonical record (proper_of_singles? hfields))
  · split at h
    · cases h
    · cases h
    · next fields hparse =>
      obtain ⟨more, hmore, hvalue⟩ := Option.map_eq_some_iff.mp h
      obtain rfl := Option.some.inj hvalue
      have hfields : Proper fields := Value.proper_object_iff.mp (Json.proper_of_parse? hparse)
      have hoverlay : (Fields.overlay fields more).Proper :=
        hfields.overlay (proper_of_singles? hmore)
      exact Value.proper_object_iff.mpr (proper_canonical record hoverlay)
    · next hparse =>
      obtain rfl := Option.some.inj (Option.some.inj h)
      exact Json.proper_of_parse? hparse

/-- The environment gives the two sections that its variables name, and nothing else. -/
theorem ofEnvironment_eq_ok {environment : Environment} {fields : Fields}
    (h : ofEnvironment environment = .ok fields) :
    ∃ logging extraction, recordValue? "logging" (lowered environment) = some logging ∧
      recordValue? "extraction" (lowered environment) = some extraction ∧
      fields = (logging.map fun value => ("logging", value)).toList ++
        (extraction.map fun value => ("extraction", value)).toList := by
  simp only [ofEnvironment, List.foldl_cons, List.foldl_nil] at h
  rcases hlogging : recordValue? "logging" (lowered environment) with _ | _ | logging
  · simp [hlogging] at h
  all_goals
    rcases hextraction : recordValue? "extraction" (lowered environment) with _ | _ | extraction
    · simp [hlogging, hextraction] at h
    all_goals
      simp only [hlogging, hextraction] at h
      exact ⟨_, _, rfl, rfl, (Except.ok.inj h).symm⟩

/-- The environment gives proper fields. -/
theorem proper_of_ofEnvironment {environment : Environment} {fields : Fields}
    (h : ofEnvironment environment = .ok fields) : fields.Proper := by
  obtain ⟨logging, extraction, hlogging, hextraction, rfl⟩ := ofEnvironment_eq_ok h
  refine ⟨?_, fun field hfield => ?_⟩
  · cases logging <;> cases extraction <;> simp [Fields.names]
  · rcases List.mem_append.mp hfield with hfield | hfield
    · obtain ⟨value, rfl, rfl⟩ := Option.map_eq_some_iff.mp (Option.mem_toList.mp hfield)
      exact proper_of_recordValue? hlogging
    · obtain ⟨value, rfl, rfl⟩ := Option.map_eq_some_iff.mp (Option.mem_toList.mp hfield)
      exact proper_of_recordValue? hextraction

/-- The standard readers give no name twice. -/
theorem Readers.proper_standard : Readers.standard.Proper :=
  ⟨Yaml.proper_of_parse?, proper_of_ofEnvironment⟩

end ShellSurvey.Settings
