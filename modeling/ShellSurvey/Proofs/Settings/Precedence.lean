import ShellSurvey.Proofs.Settings.Layers
import ShellSurvey.Proofs.Settings.Recheck

/-!
# Precedence of settings

Settings are loaded from layers that go over each other before anything is checked. If the records
in the layers are objects, this is the same as looking for each setting on its own: the first layer
that has it decides, and there is the default if none has it (`Setting.resolve?`).

Two things make it so. Going over each other, layers do not cut off settings of a record, so a
setting is found where the first layer has it. And no check accepts an object, so it does not
matter that an object found for a setting goes over an object of a later layer
(`Setting.result?_check_overlay`).
-/

namespace ShellSurvey.Settings

/-! ### Results of checks -/

namespace Checked

variable {α β : Type}

/-- The result of a check if nothing is wrong. -/
def result? : Checked α → Option α
  | .valid result => some result
  | _ => none

theorem result?_map (f : α → β) (checked : Checked α) :
    (checked.map f).result? = checked.result?.map f := by
  cases checked <;> rfl

/-- Two checks have a result together just if each has one. -/
theorem result?_apply (function : Checked (α → β)) (checked : Checked α) :
    (function.apply checked).result? =
      function.result?.bind fun f => checked.result?.map f := by
  cases function <;> cases checked <;> rfl

theorem result?_under (segment : Segment) (checked : Checked α) :
    (checked.under segment).result? = checked.result? := by
  cases checked <;> rfl

/-- A field that is not there has the default as its result. -/
theorem result?_field (fields : Fields) (name : String) (default : α)
    (check : Value → Checked α) :
    (field fields name default check).result? =
      match fields.get? name with
      | some value => (check value).result?
      | none => some default := by
  rw [field]
  cases fields.get? name with
  | none => rfl
  | some value => exact result?_under _ _

end Checked

/-! ### Single settings -/

/-- The single settings. -/
inductive Setting where
  /-- The least level of all events. -/
  | level
  /-- The outputs. -/
  | outputs
  /-- The size of the largest file that is read. -/
  | maxFileSizeMb
  /-- Whether string literals are collected. -/
  | includeStrings
  /-- Whether imports of unknown files are kept. -/
  | includeDynamicImports
  /-- Whether functions get the comment block above them. -/
  | attachDocComments
  deriving DecidableEq, Repr

namespace Setting

/-- What a setting is. -/
abbrev Result : Setting → Type
  | .level => Level
  | .outputs => List OutputSettings
  | .maxFileSizeMb => Nat
  | .includeStrings | .includeDynamicImports | .attachDocComments => Bool

/-- The record of a setting. -/
def record : Setting → String
  | .level | .outputs => "logging"
  | .maxFileSizeMb | .includeStrings | .includeDynamicImports | .attachDocComments => "extraction"

/-- The name of a setting in its record. -/
def name : Setting → String
  | .level => "level"
  | .outputs => "outputs"
  | .maxFileSizeMb => "max_file_size_mb"
  | .includeStrings => "include_strings"
  | .includeDynamicImports => "include_dynamic_imports"
  | .attachDocComments => "attach_doc_comments"

/-- Where a setting stands in a layer. -/
def path (setting : Setting) : List String :=
  [setting.record, setting.name]

/-- The check of a setting. -/
def check (homes : Homes) : (setting : Setting) → Value → Checked setting.Result
  | .level => checkLevel
  | .outputs => checkOutputs homes
  | .maxFileSizeMb => checkSize
  | .includeStrings | .includeDynamicImports | .attachDocComments => checkFlag

/-- A setting among all settings. -/
def get (settings : Settings) : (setting : Setting) → setting.Result
  | .level => settings.logging.level
  | .outputs => settings.logging.outputs
  | .maxFileSizeMb => settings.extraction.maxFileSizeMb
  | .includeStrings => settings.extraction.includeStrings
  | .includeDynamicImports => settings.extraction.includeDynamicImports
  | .attachDocComments => settings.extraction.attachDocComments

/-- The settings of which each is the given one. -/
def collect (results : (setting : Setting) → setting.Result) : Settings :=
  { logging := { level := results .level, outputs := results .outputs }
    extraction :=
      { maxFileSizeMb := results .maxFileSizeMb
        includeStrings := results .includeStrings
        includeDynamicImports := results .includeDynamicImports
        attachDocComments := results .attachDocComments } }

theorem get_collect (results : (setting : Setting) → setting.Result) (setting : Setting) :
    get (collect results) setting = results setting := by
  cases setting <;> rfl

/-- What a setting is by the first layer that has it; the default if none has it. There is no
result if the value found is refused. -/
def resolve? (homes : Homes) (setting : Setting) : List Fields → Option setting.Result
  | [] => some (get {} setting)
  | layer :: rest =>
    match layer.reach? setting.path with
    | some value => (setting.check homes value).result?
    | none => setting.resolve? homes rest

end Setting

/-! ### Layers over each other -/

/-- Whether the records of settings in a layer are objects. -/
def Sectioned (layer : Fields) : Prop :=
  ∀ record ∈ recordNames, ∀ value, layer.get? record = some value → value.fields? ≠ none

instance (layer : Fields) : Decidable (Sectioned layer) :=
  decidable_of_iff
    (∀ record ∈ recordNames, ∀ value ∈ layer.get? record, value.fields?.isSome) <| by
    simp [Sectioned, Option.isSome_iff_ne_none]

namespace Setting

variable {homes : Homes} {setting : Setting} {base top layer : Fields} {rest other : List Fields}

theorem record_mem (setting : Setting) : setting.record ∈ recordNames := by
  cases setting <;> decide

theorem result?_check_object (homes : Homes) (setting : Setting) (fields : Fields) :
    (setting.check homes (.object fields)).result? = none := by
  cases setting <;> rfl

/-- The checks of single values look at the upper layer only. -/
theorem result?_check_overlay (homes : Homes) (setting : Setting) (old value : Value) :
    (setting.check homes (old.overlay value)).result? = (setting.check homes value).result? := by
  by_cases hleaf : value.fields? = none
  · rw [Value.overlay_of_leaf hleaf]
  · obtain ⟨above, rfl⟩ := Value.exists_object hleaf
    obtain ⟨merged, hmerged⟩ := Value.exists_object (Value.fields?_overlay_object old above)
    rw [hmerged, result?_check_object, result?_check_object]

/-- A layer of sections cuts off no setting of another layer. -/
theorem not_cuts_path (h : Sectioned layer) (setting : Setting) : ¬layer.Cuts setting.path := by
  rw [path, Fields.cuts_cons_iff (List.cons_ne_nil _ _)]
  rintro (⟨value, hget, hleaf⟩ | hcuts)
  · exact h _ setting.record_mem value hget hleaf
  · exact Fields.not_cuts_single hcuts

/-- Laying one layer over another resolves a setting as the two layers do one after the other. -/
theorem resolve?_overlay (base : Fields) (htop : top.Proper) (h : Sectioned top)
    (rest : List Fields) :
    setting.resolve? homes (base.overlay top :: rest) =
      setting.resolve? homes (top :: base :: rest) := by
  have hfound := Fields.reach?_overlay base htop (not_cuts_path h setting)
  rw [resolve?, resolve?, hfound]
  rcases top.reach? setting.path with _ | value
  · rfl
  · exact result?_check_overlay homes setting _ value

theorem resolve?_cons_congr (h : setting.resolve? homes rest = setting.resolve? homes other) :
    setting.resolve? homes (layer :: rest) = setting.resolve? homes (layer :: other) := by
  rw [resolve?, resolve?, h]

end Setting

/-- Layers of sections are laid over each other section by section. -/
theorem Sectioned.overlay {base top : Fields} (hbase : Sectioned base) (htop : top.Proper)
    (h : Sectioned top) : Sectioned (base.overlay top) := by
  intro record hrecord value hget
  rw [Fields.get?_overlay base htop.nodup] at hget
  rcases htopGet : top.get? record with _ | above
  · rw [htopGet] at hget
    exact hbase record hrecord value hget
  · obtain ⟨fields, rfl⟩ := Value.exists_object (h record hrecord above htopGet)
    rw [htopGet] at hget
    obtain rfl := Option.some.inj hget
    exact Value.fields?_overlay_object _ fields

/-- The two files go over each other first, then what is given goes over the environment, and then
that over the files. The grouping does not matter to a setting. -/
theorem Setting.resolve?_merged {given environment project : Fields} (common : Fields)
    (homes : Homes) (setting : Setting) (hgiven : given.Proper) (henvironment : environment.Proper)
    (hproject : project.Proper) (hgivenSections : Sectioned given)
    (henvironmentSections : Sectioned environment) (hprojectSections : Sectioned project) :
    setting.resolve? homes [(common.overlay project).overlay (environment.overlay given)] =
      setting.resolve? homes [given, environment, project, common] := by
  have htopSections : Sectioned (environment.overlay given) :=
    henvironmentSections.overlay hgiven hgivenSections
  have hfiles : setting.resolve? homes [common.overlay project] =
      setting.resolve? homes [project, common] :=
    resolve?_overlay common hproject hprojectSections []
  calc setting.resolve? homes [(common.overlay project).overlay (environment.overlay given)]
      = setting.resolve? homes [environment.overlay given, common.overlay project] :=
        resolve?_overlay _ (henvironment.overlay hgiven) htopSections []
    _ = setting.resolve? homes [given, environment, common.overlay project] :=
        resolve?_overlay environment hgiven hgivenSections _
    _ = setting.resolve? homes [given, environment, project, common] :=
        resolve?_cons_congr (resolve?_cons_congr hfiles)

/-! ### Checking all settings -/

/-- A record that is missing is checked as one without settings. -/
theorem result?_section {α : Type} {fields : Fields} {record title : String} {default : α}
    {check : Fields → Checked α}
    (hobject : ∀ value, fields.get? record = some value → value.fields? ≠ none)
    (hdefault : check [] = .valid default) :
    (Checked.field fields record default (checkRecord title check)).result? =
      (check (fields.below record)).result? := by
  rw [Checked.result?_field, Fields.below]
  rcases hget : fields.get? record with _ | value
  · rw [Option.bind_none, Option.getD_none, hdefault]
    rfl
  · obtain ⟨inner, rfl⟩ := Value.exists_object (hobject value hget)
    rfl

/-- Checking a field of its section resolves a setting in the one layer. -/
theorem result?_setting (homes : Homes) (setting : Setting) (fields : Fields) :
    (Checked.field (fields.below setting.record) setting.name (setting.get {})
      (setting.check homes)).result? = setting.resolve? homes [fields] := by
  rw [Checked.result?_field, Setting.resolve?, Setting.path,
    Fields.reach?_cons _ _ (List.cons_ne_nil _ _), Fields.reach?_single]
  rfl

/-- The logging section has a result if its settings do. -/
theorem result?_logging {homes : Homes} {fields : Fields} (h : Sectioned fields) :
    (Checked.field fields "logging" {} (checkLogging homes)).result? =
      (Setting.level.resolve? homes [fields]).bind fun level =>
        (Setting.outputs.resolve? homes [fields]).map fun outputs => ⟨level, outputs⟩ := by
  rw [checkLogging, result?_section (h "logging" (by decide))]
  · rw [Checked.result?_apply, Checked.result?_map, ← result?_setting, ← result?_setting,
      Option.bind_map]
    rfl
  · rfl

theorem result?_extraction {homes : Homes} {fields : Fields} (h : Sectioned fields) :
    (Checked.field fields "extraction" {} checkExtraction).result? =
      (Setting.maxFileSizeMb.resolve? homes [fields]).bind fun size =>
        (Setting.includeStrings.resolve? homes [fields]).bind fun strings =>
          (Setting.includeDynamicImports.resolve? homes [fields]).bind fun imports =>
            (Setting.attachDocComments.resolve? homes [fields]).map fun docs =>
              ⟨size, strings, imports, docs⟩ := by
  rw [checkExtraction, result?_section (h "extraction" (by decide))]
  · simp only [Checked.result?_apply, Checked.result?_map, ← result?_setting, Option.bind_map,
      Option.bind_assoc, Function.comp_def]
    rfl
  · rfl

/-- The checked settings are those that every setting is resolved to. -/
theorem result?_checkFields {homes : Homes} {fields : Fields} (h : Sectioned fields)
    (settings : Settings) :
    (checkFields homes fields).result? = some settings ↔
      ∀ setting : Setting, setting.resolve? homes [fields] = some (setting.get settings) := by
  rw [checkFields, Checked.result?_apply, Checked.result?_map, result?_logging h,
    result?_extraction h]
  constructor
  · intro hresult
    simp only [Option.bind_eq_some_iff, Option.map_eq_some_iff] at hresult
    obtain ⟨_, ⟨_, ⟨level, hlevel, outputs, houtputs, rfl⟩, rfl⟩, _,
      ⟨size, hsize, strings, hstrings, imports, himports, docs, hdocs, rfl⟩, rfl⟩ := hresult
    rintro (_ | _ | _ | _ | _ | _)
    · exact hlevel
    · exact houtputs
    · exact hsize
    · exact hstrings
    · exact himports
    · exact hdocs
  · intro hall
    rw [hall .level, hall .outputs, hall .maxFileSizeMb, hall .includeStrings,
      hall .includeDynamicImports, hall .attachDocComments]
    rfl

/-- Whether a layer has nothing but records of settings. -/
def Closed (layer : Fields) : Prop :=
  ∀ name ∈ layer.names, name ∈ recordNames

instance (layer : Fields) : Decidable (Closed layer) :=
  inferInstanceAs (Decidable (∀ name ∈ layer.names, name ∈ recordNames))

/-- There are no stray names just if only sections are named. -/
theorem strayIssues_eq_nil_iff {fields : Fields} : strayIssues fields = [] ↔ Closed fields := by
  simp [strayIssues, Closed, Fields.names]

/-- Laying layers over each other neither adds a stray name nor hides one. -/
theorem closed_overlay_iff {base top : Fields} (h : top.Proper) :
    Closed (base.overlay top) ↔ Closed base ∧ Closed top := by
  simp only [Closed, Fields.mem_names_overlay base h.nodup, or_imp, forall_and]

/-- Stray names are the only other obstacle to a result. -/
theorem result?_checkClosed {homes : Homes} {fields : Fields} {settings : Settings} :
    (checkClosed homes fields).result? = some settings ↔
      Closed fields ∧ (checkFields homes fields).result? = some settings := by
  rw [checkClosed, ← strayIssues_eq_nil_iff]
  split
  · next hstray => simp [hstray]
  · next first more hstray =>
    rw [Checked.result?_apply]
    simp [hstray, Checked.result?]

/-- The settings are those that the checks give. -/
theorem settled_eq_ok_iff {checked : Checked Settings} {settings : Settings} :
    settled checked = .ok settings ↔ checked.result? = some settings := by
  cases checked <;> simp [settled, Checked.result?]

/-! ### Loading -/

/-- Once the sources are read, the settings are those of one layer made of all of them. -/
theorem load_eq_settled {sources : Sources} {common project environment : Fields}
    (hcommon : sources.common.read sources.readers = .ok common)
    (hproject : sources.project.read sources.readers = .ok project)
    (hpresent : sources.required → sources.project.text.isSome)
    (henvironment : sources.readers.environment sources.environment = .ok environment) :
    load sources = settled (checkClosed sources.home
      ((common.overlay project).overlay (environment.overlay sources.given))) := by
  have hrequired : (sources.required && sources.project.text.isNone) = false := by
    cases hflag : sources.required with
    | false => rfl
    | true => simpa using hpresent hflag
  have hfiles : readFiles sources = .ok (common.overlay project) := by
    rw [readFiles, hrequired, hproject, hcommon]
    rfl
  rw [load_eq_accept, accept, hfiles, henvironment]

/-- **Precedence, setting by setting.** Let the readers of files and environment be any that give
proper data, and let the records in all layers be objects. Settings are loaded exactly if no layer
has anything else and each of them is what the first layer that has it says: what the caller gives,
the environment, the file of the project, the common file, and else the default. They are loaded as
soon as what the layers say first is accepted. -/
theorem load_precedence {sources : Sources} (hreaders : sources.readers.Proper)
    {common project environment : Fields}
    (hcommon : sources.common.read sources.readers = .ok common)
    (hproject : sources.project.read sources.readers = .ok project)
    (hpresent : sources.required → sources.project.text.isSome)
    (henvironment : sources.readers.environment sources.environment = .ok environment)
    (hgiven : sources.given.Proper) {layers : List Fields}
    (hlayers : layers = [sources.given, environment, project, common])
    (hsections : ∀ layer ∈ layers, Sectioned layer) :
    (∀ settings, load sources = .ok settings ↔ (∀ layer ∈ layers, Closed layer) ∧
      ∀ setting : Setting,
        setting.resolve? sources.home layers = some (setting.get settings)) ∧
    ((∀ layer ∈ layers, Closed layer) →
      (∀ setting : Setting, (setting.resolve? sources.home layers).isSome) →
      ∃ settings, load sources = .ok settings) := by
  have hproper : environment.Proper := hreaders.environment henvironment
  have hprojectProper : project.Proper := SettingsFile.proper_of_read hreaders hproject
  have hiff : ∀ settings, load sources = .ok settings ↔ (∀ layer ∈ layers, Closed layer) ∧
      ∀ setting : Setting,
        setting.resolve? sources.home layers = some (setting.get settings) := by
    intro settings
    subst hlayers
    simp only [List.forall_mem_cons, List.not_mem_nil, false_imp_iff, implies_true, and_true]
      at hsections ⊢
    obtain ⟨hgivenSections, henvironmentSections, hprojectSections, hcommonSections⟩ := hsections
    have hmerged : Sectioned
        ((common.overlay project).overlay (environment.overlay sources.given)) :=
      (hcommonSections.overlay hprojectProper hprojectSections).overlay (hproper.overlay hgiven)
        (henvironmentSections.overlay hgiven hgivenSections)
    have hresolve := fun setting => Setting.resolve?_merged common sources.home setting
      hgiven hproper hprojectProper hgivenSections henvironmentSections hprojectSections
    rw [load_eq_settled hcommon hproject hpresent henvironment, settled_eq_ok_iff,
      result?_checkClosed, result?_checkFields hmerged, closed_overlay_iff (hproper.overlay hgiven),
      closed_overlay_iff hprojectProper, closed_overlay_iff hgiven]
    simp only [hresolve]
    tauto
  refine ⟨hiff, fun hclosed hsome => ?_⟩
  choose results hresults using fun setting => Option.isSome_iff_exists.mp (hsome setting)
  refine ⟨Setting.collect results, (hiff _).mpr ⟨hclosed, fun setting => ?_⟩⟩
  rw [hresults setting, Setting.get_collect]

/-- Sources of which each has something to say about the settings. -/
def layeredSources : Sources where
  home := "/home/user"
  common := ⟨"common.yaml", some "extraction: \x7binclude_strings: no\x7d".toList⟩
  project := ⟨"project.yaml", some "logging: \x7blevel: ERROR, outputs: []\x7d".toList⟩
  required := true
  environment := [("SHELLFACTS__EXTRACTION__MAX_FILE_SIZE_MB", "9")]
  given := [("logging", .object [("level", .text "DEBUG")])]

/-- What each of them is read as. -/
def layeredFields : List Fields :=
  [layeredSources.given, (ofEnvironment layeredSources.environment).toOption.getD [],
    (layeredSources.project.read .standard).toOption.getD [],
    (layeredSources.common.read .standard).toOption.getD []]

theorem eq_ok_getD {ε : Type} {read : Except ε Fields} (h : read.toOption.isSome) :
    read = .ok (read.toOption.getD []) := by
  cases read with
  | error => cases h
  | ok fields => rfl

/-- The level comes from the given fields, though the project has one too. Each of the other sources
gives a setting that it alone has. -/
theorem load_precedence_layered :
    layeredSources.readers.Proper ∧ (∀ layer ∈ layeredFields, Sectioned layer ∧ Closed layer) ∧
      load layeredSources = .ok
        { logging := { level := .debug, outputs := [] }
          extraction := { maxFileSizeMb := 9, includeStrings := false } } := by
  have hfields : (∀ layer ∈ layeredFields, Sectioned layer ∧ Closed layer) ∧
      ((layeredSources.common.read .standard).toOption.isSome ∧
        (layeredSources.project.read .standard).toOption.isSome ∧
        (ofEnvironment layeredSources.environment).toOption.isSome) ∧
      Setting.level.resolve? layeredSources.home layeredFields = some .debug ∧
      Setting.outputs.resolve? layeredSources.home layeredFields = some [] ∧
      Setting.maxFileSizeMb.resolve? layeredSources.home layeredFields = some 9 ∧
      Setting.includeStrings.resolve? layeredSources.home layeredFields = some false ∧
      Setting.includeDynamicImports.resolve? layeredSources.home layeredFields = some true ∧
      Setting.attachDocComments.resolve? layeredSources.home layeredFields = some true := by
    decide +kernel
  obtain ⟨hlayers, ⟨hcommon, hproject, henvironment⟩, hlevel, houtputs, hsize, hstrings, himports,
    hdocs⟩ := hfields
  have hgiven : layeredSources.given.Proper :=
    Fields.proper_nil.put (Value.proper_object_iff.mpr (Fields.proper_nil.put (.leaf rfl) _)) _
  refine ⟨Readers.proper_standard, hlayers, ((load_precedence Readers.proper_standard
    (eq_ok_getD hcommon) (eq_ok_getD hproject) (fun _ => rfl) (eq_ok_getD henvironment) hgiven rfl
    fun layer hlayer => (hlayers layer hlayer).1).1 _).mpr
    ⟨fun layer hlayer => (hlayers layer hlayer).2, ?_⟩⟩
  rintro (_ | _ | _ | _ | _ | _)
  · exact hlevel
  · exact houtputs
  · exact hsize
  · exact hstrings
  · exact himports
  · exact hdocs

end ShellSurvey.Settings
