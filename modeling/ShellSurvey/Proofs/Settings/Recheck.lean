import Mathlib.Data.List.DropRight
import Mathlib.Data.List.Forall2
import ShellSurvey.Proofs.Path
import ShellSurvey.Settings.Load

/-!
# Checking settings again

Settings that a check has accepted can be written as data and checked again: nothing is refused
then, and nothing changes.

For most settings this is a matter of names and numbers. A destination is different, since it is
not stored as it was given: the home sign is expanded and the path is brought into its normal form.
What is stored has a form that says nothing of checks (`IsDestination`), and a destination is
stored as it is exactly if it has that form (`checkDestination_self_iff`). Sound settings
(`Settings.Sound`) are those that every check gives, and those that a check reads back.
-/

namespace ShellSurvey.Settings

/-! ### Valid checks -/

namespace Checked

variable {α β : Type} {a default : α} {b : β} {checked : Checked α} {fields : Fields}
  {name : String} {value : Value} {check : Value → Checked α}

theorem map_eq_valid_iff {f : α → β} :
    checked.map f = .valid b ↔ ∃ a, checked = .valid a ∧ f a = b := by
  cases checked <;> simp [map]

theorem apply_eq_valid_iff {function : Checked (α → β)} :
    function.apply checked = .valid b ↔
      ∃ f a, function = .valid f ∧ checked = .valid a ∧ f a = b := by
  cases function <;> cases checked <;> simp [apply]

theorem under_eq_valid_iff {segment : Segment} :
    checked.under segment = .valid a ↔ checked = .valid a := by
  cases checked <;> simp [under]

/-- A field that is there is read by its check. -/
theorem field_eq_valid (hget : fields.get? name = some value) (hcheck : check value = .valid a) :
    field fields name default check = .valid a := by
  rw [field, hget]
  exact under_eq_valid_iff.mpr hcheck

/-- A field is the default, or its check gives it. -/
theorem field_cases (h : field fields name default check = .valid a) :
    a = default ∨ ∃ value, check value = .valid a := by
  rw [field] at h
  split at h
  · next value _ => exact .inr ⟨value, under_eq_valid_iff.mp h⟩
  · exact .inl (valid.inj h).symm

/-- The items of a list are checked one by one. -/
theorem itemsFrom_eq_valid_iff {index : Nat} {values : List Value} {items : List α} :
    itemsFrom check index values = .valid items ↔
      List.Forall₂ (fun value item => check value = .valid item) values items := by
  induction values generalizing index items with
  | nil => cases items <;> simp [itemsFrom]
  | cons value rest ih =>
    simp only [itemsFrom, apply_eq_valid_iff, map_eq_valid_iff, under_eq_valid_iff, ih,
      List.forall₂_cons_left_iff]
    constructor
    · rintro ⟨_, others, ⟨item, hitem, rfl⟩, hothers, rfl⟩
      exact ⟨item, others, hitem, hothers, rfl⟩
    · rintro ⟨item, others, hitem, hothers, rfl⟩
      exact ⟨_, others, ⟨item, hitem, rfl⟩, hothers, rfl⟩

end Checked

open Checked

/-- Only an object passes the check of a section. -/
theorem checkRecord_eq_valid_iff {α : Type} {a : α} {title : String}
    {check : Fields → Checked α} {value : Value} :
    checkRecord title check value = .valid a ↔
      ∃ fields, value = .object fields ∧ check fields = .valid a := by
  cases value <;> simp [checkRecord, problem]

/-! ### Home directories -/

variable {homes : Homes} {path expanded base : Path} {home text stored : String} {value : Value}

/-- All home directories. -/
def Homes.all (homes : Homes) : List String :=
  homes.own :: homes.accounts.map (·.2)

/-- Whether all home directories are absolute paths. -/
def Homes.Absolute (homes : Homes) : Prop :=
  ∀ home ∈ homes.all, (Path.ofString home).isAbsolute

instance (homes : Homes) : Decidable homes.Absolute :=
  inferInstanceAs (Decidable (∀ home ∈ homes.all, (Path.ofString home).isAbsolute))

/-- A directory that is found is one of the home directories. -/
theorem Homes.mem_all_of_find? {name : List Char} (h : homes.find? name = some home) :
    home ∈ homes.all := by
  rw [find?] at h
  split_ifs at h
  · obtain rfl := Option.some.inj h
    exact List.mem_cons_self
  · obtain ⟨before, after, haccounts, -⟩ := List.lookup_eq_some_iff.mp h
    simp [all, haccounts]

theorem isName_of_mem_homePath? (h : homePath? home = some base) {part : List Char}
    (hpart : part ∈ base.parts) : Path.IsName part := by
  rw [homePath?] at h
  split_ifs at h
  all_goals
    obtain rfl := Option.some.inj h
    exact Path.isName_of_mem_ofChars hpart

/-- An absolute home directory stays absolute without the slashes at its end. -/
theorem isAbsolute_of_homePath? (habsolute : (Path.ofString home).isAbsolute)
    (h : homePath? home = some base) : base.isAbsolute := by
  rw [Path.ofString, Path.isAbsolute_ofChars_iff] at habsolute
  obtain ⟨slashes, hhome⟩ : home.toList.rdropWhile (· == '/') <+: home.toList :=
    List.rdropWhile_prefix _ _
  rw [homePath?, ← List.rdropWhile] at h
  split_ifs at h with hsign hempty
  · obtain rfl := Option.some.inj h
    rfl
  · -- What is left of the directory starts as the directory does.
    obtain rfl := Option.some.inj h
    rw [Path.isAbsolute_ofChars_iff]
    rw [List.isEmpty_iff] at hempty
    obtain ⟨c, rest, hfront⟩ := List.exists_cons_of_ne_nil hempty
    rw [hfront] at hhome ⊢
    rw [← hhome] at habsolute
    exact habsolute

/-- Nothing is expanded in an absolute path. -/
theorem expandHome?_of_isAbsolute (h : path.isAbsolute) : expandHome? homes path = some path := by
  rw [expandHome?]
  split
  · next hroot _ =>
    rw [Path.isAbsolute, hroot] at h
    cases h
  · rfl

/-- A path is expanded to itself, or it starts at a home directory. -/
theorem expandHome?_cases (h : expandHome? homes path = some expanded) :
    expanded = path ∨ ∃ home ∈ homes.all, ∃ base first rest, homePath? home = some base ∧
      path.parts = first :: rest ∧ expanded = { base with parts := base.parts ++ rest } := by
  rw [expandHome?] at h
  split at h
  · next name rest _ hparts =>
    obtain ⟨base, hbase, rfl⟩ := Option.map_eq_some_iff.mp h
    obtain ⟨home, hfind, hhome⟩ := Option.bind_eq_some_iff.mp hbase
    exact .inr ⟨home, Homes.mem_all_of_find? hfind, base, _, rest, hhome, hparts, rfl⟩
  · exact .inl (Option.some.inj h).symm

/-- An expanded path still consists of names. -/
theorem isName_of_mem_expandHome? (h : expandHome? homes path = some expanded)
    (hnames : ∀ part ∈ path.parts, Path.IsName part) :
    ∀ part ∈ expanded.parts, Path.IsName part := by
  obtain rfl | ⟨home, -, base, first, rest, hbase, hparts, rfl⟩ := expandHome?_cases h
  · exact hnames
  · intro part hpart
    rcases List.mem_append.mp hpart with hpart | hpart
    · exact isName_of_mem_homePath? hbase hpart
    · exact hnames part (hparts ▸ List.mem_cons_of_mem first hpart)

/-- Expanding twice is expanding once, if the home directories are absolute. -/
theorem expandHome?_expandHome? (hhomes : homes.Absolute)
    (h : expandHome? homes path = some expanded) : expandHome? homes expanded = some expanded := by
  obtain rfl | ⟨home, hhome, base, first, rest, hbase, -, rfl⟩ := expandHome?_cases h
  · exact h
  · have habsolute : base.isAbsolute := isAbsolute_of_homePath? (hhomes home hhome) hbase
    exact expandHome?_of_isAbsolute habsolute

/-! ### Destinations -/

/-- What a stored destination is: a standard stream, or the text of a path from a root whose parts
are names. -/
inductive IsDestination : String → Prop
  | stream {text : String} : text ∈ streams → IsDestination text
  | file {path : Path} : path.isAbsolute → (∀ part ∈ path.parts, Path.IsName part) →
      IsDestination path.text

/-- A destination is a stream as it is written, or an absolute path after expansion. -/
theorem checkDestination_cases (h : checkDestination homes value = .valid stored) :
    stored ∈ streams ∧ value = .text stored ∨
      ∃ text path, value = .text text ∧ text ∉ streams ∧
        expandHome? homes (Path.ofString text) = some path ∧ path.isAbsolute ∧
          stored = path.text := by
  rw [checkDestination.eq_def] at h
  split at h
  · next text =>
    split_ifs at h with hstream
    · obtain rfl := valid.inj h
      exact .inl ⟨List.contains_iff_mem.mp hstream, rfl⟩
    · rw [List.contains_iff_mem] at hstream
      split at h
      · cases h
      · next path hexpand =>
        split_ifs at h with habsolute
        · obtain rfl := valid.inj h
          exact .inr ⟨text, path, rfl, hstream, hexpand, habsolute, rfl⟩
        · cases h
  · cases h

/-- An absolute path is not taken for a stream. -/
theorem notMem_streams_of_isAbsolute (h : path.isAbsolute) : path.text ∉ streams := by
  intro hmem
  have hhead : path.text.toList.head? = some '/' := by
    rw [Path.text, String.toList_ofList]
    exact Path.head?_chars_of_isAbsolute h
  have hstreams : ∀ stream ∈ streams, stream.toList.head? ≠ some '/' := by decide
  exact hstreams path.text hmem hhead

/-- What passes is a destination in its final form. -/
theorem isDestination_of_checkDestination (h : checkDestination homes value = .valid stored) :
    IsDestination stored := by
  obtain ⟨hstream, -⟩ | ⟨text, path, -, -, hexpand, habsolute, rfl⟩ := checkDestination_cases h
  · exact .stream hstream
  · exact .file habsolute
      (isName_of_mem_expandHome? hexpand fun _ hpart => Path.isName_of_mem_ofString hpart)

/-- A destination in its final form passes unchanged, whatever the home directories are. -/
theorem IsDestination.checkDestination (h : IsDestination text) (homes : Homes) :
    checkDestination homes (.text text) = .valid text := by
  rw [Settings.checkDestination]
  cases h with
  | stream hstream => rw [if_pos (List.contains_iff_mem.mpr hstream)]
  | @file path habsolute hnames =>
    have hstream : ¬streams.contains path.text := by
      rw [List.contains_iff_mem]
      exact notMem_streams_of_isAbsolute habsolute
    -- The path is read back from its text, and a path from a root has no home sign in front.
    rw [if_neg hstream, Path.ofString_text hnames, expandHome?_of_isAbsolute habsolute]
    exact if_pos habsolute

/-- The destinations that are stored as they are given are those that have the form of a stored
one. -/
theorem checkDestination_self_iff :
    checkDestination homes (.text text) = .valid text ↔ IsDestination text :=
  ⟨isDestination_of_checkDestination, fun h => h.checkDestination homes⟩

/-! ### Sound settings -/

/-- What every check of settings gives: destinations as they are stored, and a size of at least
one. -/
structure Sound (settings : Settings) : Prop where
  destinations : ∀ output ∈ settings.logging.outputs, IsDestination output.destination
  size : 0 < settings.extraction.maxFileSizeMb

/-- The defaults are not checked where they are taken, but they are sound. -/
theorem sound_default : Sound {} where
  destinations := List.forall_mem_singleton.mpr (.stream (by decide))
  size := by decide

theorem isDestination_of_checkOutput {output : OutputSettings}
    (h : checkOutput homes value = .valid output) : IsDestination output.destination := by
  simp only [checkOutput, checkRecord_eq_valid_iff, apply_eq_valid_iff, map_eq_valid_iff] at h
  obtain ⟨fields, rfl, _, level, ⟨_, destination, ⟨format, -, rfl⟩, hdestination, rfl⟩, -, rfl⟩ := h
  rcases field_cases hdestination with rfl | ⟨value, hcheck⟩
  · exact sound_default.destinations {} List.mem_cons_self
  · exact isDestination_of_checkDestination hcheck

theorem isDestination_of_checkOutputs {outputs : List OutputSettings}
    (h : checkOutputs homes value = .valid outputs) :
    ∀ output ∈ outputs, IsDestination output.destination := by
  rw [checkOutputs.eq_def] at h
  split at h
  · replace h := itemsFrom_eq_valid_iff.mp h
    induction h with
    | nil => simp
    | cons hitem _ ih => exact List.forall_mem_cons.mpr ⟨isDestination_of_checkOutput hitem, ih⟩
  · cases h

theorem isDestination_of_checkLogging {logging : LoggingSettings}
    (h : checkLogging homes value = .valid logging) :
    ∀ output ∈ logging.outputs, IsDestination output.destination := by
  simp only [checkLogging, checkRecord_eq_valid_iff, apply_eq_valid_iff, map_eq_valid_iff] at h
  obtain ⟨fields, rfl, _, outputs, ⟨level, -, rfl⟩, houtputs, rfl⟩ := h
  rcases field_cases houtputs with rfl | ⟨value, hcheck⟩
  · exact sound_default.destinations
  · exact isDestination_of_checkOutputs hcheck

theorem pos_of_checkSize {size : Nat} (h : checkSize value = .valid size) : 0 < size := by
  rw [checkSize] at h
  split at h
  · cases h
  · split_ifs at h
    · obtain rfl := valid.inj h
      omega
    · cases h

theorem pos_of_checkExtraction {extraction : ExtractionSettings}
    (h : checkExtraction value = .valid extraction) : 0 < extraction.maxFileSizeMb := by
  simp only [checkExtraction, checkRecord_eq_valid_iff, apply_eq_valid_iff, map_eq_valid_iff] at h
  obtain ⟨fields, rfl, _, _, ⟨_, _, ⟨_, _, ⟨size, hsize, rfl⟩, -, rfl⟩, -, rfl⟩, -, rfl⟩ := h
  rcases field_cases hsize with rfl | ⟨value, hcheck⟩
  · exact sound_default.size
  · exact pos_of_checkSize hcheck

/-- Settings that pass are sound. -/
theorem sound_of_checkFields {fields : Fields} {settings : Settings}
    (h : checkFields homes fields = .valid settings) : settings.Sound := by
  simp only [checkFields, apply_eq_valid_iff, map_eq_valid_iff] at h
  obtain ⟨_, extraction, ⟨logging, hlogging, rfl⟩, hextraction, rfl⟩ := h
  constructor
  · rcases field_cases hlogging with rfl | ⟨value, hcheck⟩
    · exact sound_default.destinations
    · exact isDestination_of_checkLogging hcheck
  · rcases field_cases hextraction with rfl | ⟨value, hcheck⟩
    · exact sound_default.size
    · exact pos_of_checkExtraction hcheck

theorem sound_of_checkClosed {fields : Fields} {settings : Settings}
    (h : checkClosed homes fields = .valid settings) : settings.Sound := by
  rw [checkClosed] at h
  split at h
  · exact sound_of_checkFields h
  · obtain ⟨_, _, -, hstray, -⟩ := apply_eq_valid_iff.mp h
    cases hstray

theorem eq_valid_of_settled {checked : Checked Settings} {settings : Settings}
    (h : settled checked = .ok settings) : checked = .valid settings := by
  cases checked with
  | valid result => exact congrArg valid (Except.ok.inj h)
  | invalid first more => cases h
  | homeless => cases h

/-- Settings that are accepted are sound. -/
theorem sound_of_accept {sources : Sources} {settings : Settings}
    (h : accept sources = .ok settings) : settings.Sound := by
  rw [accept] at h
  split at h
  · cases h
  · split at h
    · cases h
    · exact sound_of_checkClosed (eq_valid_of_settled h)

/-! ### Reading back -/

theorem checkLevel_name (level : Level) : checkLevel (.text level.name) = .valid level := by
  have hname : Level.ofName? level.name = some level := by cases level <;> decide
  rw [checkLevel, hname]

theorem checkOptionalLevel_optText (level : Option Level) :
    checkOptionalLevel (.optText (level.map Level.name)) = .valid level := by
  cases level with
  | none => rfl
  | some level => exact map_eq_valid_iff.mpr ⟨level, checkLevel_name level, rfl⟩

theorem checkFormat_name (format : Format) : checkFormat (.text format.name) = .valid format := by
  cases format <;> rfl

theorem checkSize_nat {size : Nat} (h : 0 < size) : checkSize (.nat size) = .valid size := by
  have hpos : (0 : Int) < size := Int.natCast_pos.mpr h
  rw [checkSize, Value.nat, integer]
  exact if_pos hpos

theorem checkOutput_toValue {output : OutputSettings} (h : IsDestination output.destination)
    (homes : Homes) : checkOutput homes output.toValue = .valid output := by
  simp only [checkOutput, checkRecord_eq_valid_iff, apply_eq_valid_iff, map_eq_valid_iff]
  refine ⟨_, rfl, _, output.level, ⟨_, output.destination, ⟨output.format, ?format, rfl⟩,
    ?destination, rfl⟩, ?level, rfl⟩
  case format => exact field_eq_valid rfl (checkFormat_name output.format)
  case destination => exact field_eq_valid rfl (h.checkDestination homes)
  case level => exact field_eq_valid rfl (checkOptionalLevel_optText output.level)

theorem checkOutputs_toValue {outputs : List OutputSettings}
    (h : ∀ output ∈ outputs, IsDestination output.destination) (homes : Homes) :
    checkOutputs homes (.list (outputs.map OutputSettings.toValue)) = .valid outputs := by
  rw [checkOutputs, itemsFrom_eq_valid_iff, List.forall₂_map_left_iff, List.forall₂_same]
  exact fun output houtput => checkOutput_toValue (h output houtput) homes

/-- The logging section passes as it is, if its destinations do. -/
theorem checkLogging_toValue {logging : LoggingSettings}
    (h : ∀ output ∈ logging.outputs, IsDestination output.destination) (homes : Homes) :
    checkLogging homes logging.toValue = .valid logging := by
  simp only [checkLogging, checkRecord_eq_valid_iff, apply_eq_valid_iff, map_eq_valid_iff]
  refine ⟨_, rfl, _, logging.outputs, ⟨logging.level, ?level, rfl⟩, ?outputs, rfl⟩
  case level => exact field_eq_valid rfl (checkLevel_name logging.level)
  case outputs => exact field_eq_valid rfl (checkOutputs_toValue h homes)

/-- The extraction section passes as it is, if its limit is positive. -/
theorem checkExtraction_toValue {extraction : ExtractionSettings}
    (h : 0 < extraction.maxFileSizeMb) :
    checkExtraction extraction.toValue = .valid extraction := by
  have hflag : ∀ b, checkFlag (.bool b) = .valid b := fun _ => rfl
  simp only [checkExtraction, checkRecord_eq_valid_iff, apply_eq_valid_iff, map_eq_valid_iff]
  refine ⟨_, rfl, _, extraction.attachDocComments, ⟨_, extraction.includeDynamicImports,
    ⟨_, extraction.includeStrings, ⟨extraction.maxFileSizeMb, ?size, rfl⟩, ?strings, rfl⟩,
    ?imports, rfl⟩, ?docs, rfl⟩
  case size => exact field_eq_valid rfl (checkSize_nat h)
  case strings => exact field_eq_valid rfl (hflag _)
  case imports => exact field_eq_valid rfl (hflag _)
  case docs => exact field_eq_valid rfl (hflag _)

/-- Sound settings pass as they are. -/
theorem Sound.checkSettings {settings : Settings} (h : settings.Sound) (homes : Homes) :
    checkSettings homes settings.toValue = .valid settings := by
  simp only [Settings.checkSettings, checkFields, checkRecord_eq_valid_iff, apply_eq_valid_iff,
    map_eq_valid_iff]
  refine ⟨_, rfl, _, settings.extraction, ⟨settings.logging, ?logging, rfl⟩, ?extraction, rfl⟩
  case logging => exact field_eq_valid rfl (checkLogging_toValue h.destinations homes)
  case extraction => exact field_eq_valid rfl (checkExtraction_toValue h.size)

/-- Settings are read back exactly if they are sound. -/
theorem checkSettings_toValue_iff {settings : Settings} :
    checkSettings homes settings.toValue = .valid settings ↔ settings.Sound := by
  refine ⟨fun h => ?_, fun h => h.checkSettings homes⟩
  obtain ⟨fields, -, hfields⟩ := checkRecord_eq_valid_iff.mp h
  exact sound_of_checkFields hfields

/-- Nothing that is accepted is refused or changed by the second check. -/
theorem load_eq_accept (sources : Sources) : load sources = accept sources := by
  rw [load]
  split
  · next haccept => exact haccept.symm
  · next settings haccept =>
    rw [checkAgain, checkSettings_toValue_iff.mpr (sound_of_accept haccept), haccept]

/-- **Checking again changes nothing.** The text of a path that was read is read as the same path.
If the home directories are absolute, a path in which the home sign was expanded is read back from
its text too, and expanding it again leaves it alone. A destination that is accepted is stored so
that any later check accepts it and stores the same, and a file is never stored as a standard
stream. Settings that are accepted are read back from their data as they are, so nothing that is
loaded fails or changes in the second check. -/
theorem recheck_of_accepted (homes later : Homes) :
    (∀ text, Path.ofString (Path.ofString text).text = Path.ofString text) ∧
    (homes.Absolute → ∀ text expanded, expandHome? homes (Path.ofString text) = some expanded →
      Path.ofString expanded.text = expanded ∧ expandHome? homes expanded = some expanded) ∧
    (∀ text stored, checkDestination homes (.text text) = .valid stored →
      checkDestination later (.text stored) = .valid stored ∧
        (text ∉ streams → stored ∉ streams)) ∧
    (∀ fields settings, checkClosed homes fields = .valid settings →
      checkSettings later settings.toValue = .valid settings) ∧
    ∀ sources, load sources = accept sources := by
  refine ⟨Path.ofString_text_ofString, fun hhomes text expanded hexpand => ⟨?_, ?_⟩,
    fun text stored hcheck => ⟨?_, fun htext => ?_⟩, fun fields settings hcheck => ?_,
    load_eq_accept⟩
  · exact Path.ofString_text (isName_of_mem_expandHome? hexpand fun _ hpart =>
      Path.isName_of_mem_ofString hpart)
  · exact expandHome?_expandHome? hhomes hexpand
  · exact checkDestination_self_iff.mpr (isDestination_of_checkDestination hcheck)
  · obtain ⟨hstream, hvalue⟩ | ⟨_, path, -, -, -, habsolute, rfl⟩ := checkDestination_cases hcheck
    · exact absurd (Value.text.inj hvalue ▸ hstream) htext
    · exact notMem_streams_of_isAbsolute habsolute
  · exact checkSettings_toValue_iff.mpr (sound_of_checkClosed hcheck)

/-- Home directories with slashes and dots to be dropped, one of them at a root of two slashes. -/
def slashedHomes : Homes where
  own := "//srv/./home/"
  accounts := [("log", "/var//log")]

/-- Settings that are accepted there, none of them written as it is stored. -/
def looseFields : Fields :=
  [("logging", .object [("outputs", .list [.object [("destination", .text "./~//a/../.")]])]),
    ("extraction", .object [("max_file_size_mb", .text " 3.0"), ("include_strings", .text "OFF")])]

/-- What they are stored as. -/
def storedSettings : Settings where
  logging := { outputs := [{ destination := "//srv/home/a/.." }] }
  extraction := { maxFileSizeMb := 3, includeStrings := false }

/-- Settings written loosely, with slashes and dots to spare, pass a second time as they were
stored. -/
theorem recheck_of_slashed :
    (slashedHomes.Absolute ∧ ∃ expanded,
      expandHome? slashedHomes (Path.ofString "./~//a/../.") = some expanded ∧
        Path.ofString expanded.text = expanded ∧
        expandHome? slashedHomes expanded = some expanded) ∧
    ("~log/..//x" ∉ streams ∧
      checkDestination slashedHomes (.text "~log/..//x") = .valid "/var/log/../x" ∧
        checkDestination "/" (.text "/var/log/../x") = .valid "/var/log/../x" ∧
        "/var/log/../x" ∉ streams) ∧
    checkClosed slashedHomes looseFields = .valid storedSettings ∧
      checkSettings "/" storedSettings.toValue = .valid storedSettings := by
  obtain ⟨-, hexpansion, hdestination, hsettings, -⟩ := recheck_of_accepted slashedHomes "/"
  have habsolute : slashedHomes.Absolute := by decide
  have hexpand : expandHome? slashedHomes (Path.ofString "./~//a/../.") =
      some ⟨.double, ["srv".toList, "home".toList, "a".toList, "..".toList]⟩ := by decide
  have hstored : checkDestination slashedHomes (.text "~log/..//x") = .valid "/var/log/../x" := rfl
  have hfile : "~log/..//x" ∉ streams := by decide
  have hchecked : checkClosed slashedHomes looseFields = .valid storedSettings := rfl
  obtain ⟨hagain, hstream⟩ := hdestination _ _ hstored
  exact ⟨⟨habsolute, _, hexpand, hexpansion habsolute _ _ hexpand⟩,
    ⟨hfile, hstored, hagain, hstream hfile⟩, hchecked, hsettings _ _ hchecked⟩

end ShellSurvey.Settings
