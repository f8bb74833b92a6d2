import ShellSurvey.Journal.Desk
import ShellSurvey.Proofs.Value.Proper

/-!
# Where events go

A desk changes act by act, but three of its traits can be read off the acts behind it: the settings
in place are the last ones given, the run at hand is what was said last about a run, and the teller
of a key is the last one introduced under it (`trait_afterAll`). So the lines of an event depend on
the last settings alone (`lines_of_record?`), and its run is the one at hand when it is told
(`get?_run_ofEvent`, `get?_run_ofMessage`). What is written before stays in front of it
(`Desk.linesOf_append`).

Of the outputs in the last settings those are in place that could be opened: all of them, or those
before the first that the system refused to open (`SetsUp`).
-/

namespace ShellSurvey.Journal

/-! ### Outputs that can be opened -/

/-- What is set up of outputs: all of them if the system opens each one behind those before it, and
else those before the first that it refuses. -/
inductive SetsUp (opening : Opening) (outputs : List OutputSettings) : Opened → Prop
  | all : (∀ before output after, outputs = before ++ output :: after →
      opening.refusal? before output = none) → SetsUp opening outputs { outputs := outputs }
  | upTo {before after : List OutputSettings} {output : OutputSettings} {refusal : Refusal} :
      outputs = before ++ output :: after →
      (∀ earlier other later, before = earlier ++ other :: later →
        opening.refusal? earlier other = none) →
      opening.refusal? before output = some refusal →
      SetsUp opening outputs { outputs := before, refusal := some refusal }

/-- Opening outputs behind others that are open sets up what can be set up. -/
theorem setsUp_openAll {opening : Opening} {before : List OutputSettings}
    (h : ∀ earlier other later, before = earlier ++ other :: later →
      opening.refusal? earlier other = none) (outputs : List OutputSettings) :
    SetsUp opening (before ++ outputs) (opening.openAll before outputs) := by
  induction outputs generalizing before with
  | nil =>
    rw [List.append_nil]
    exact .all h
  | cons output rest ih =>
    rw [Opening.openAll]
    cases hrefusal : opening.refusal? before output with
    | some refusal => exact .upTo rfl h hrefusal
    | none =>
      have hmore := @ih (before ++ [output]) fun earlier other later hsplit => by
        -- The output that was added last is the one that was just opened.
        rcases List.eq_nil_or_concat later with rfl | ⟨front, last, rfl⟩
        · obtain ⟨rfl, hlast⟩ := List.append_inj hsplit (by simpa using congrArg List.length hsplit)
          obtain rfl := List.singleton_inj.mp hlast
          exact hrefusal
        · rw [List.concat_eq_append, ← List.cons_append, ← List.append_assoc] at hsplit
          exact h earlier other front (List.append_inj_left' hsplit rfl)
      rwa [List.append_assoc, List.singleton_append] at hmore

/-- The outputs of settings are set up as far as they can be. -/
theorem setsUp_opened (opening : Opening) (settings : LoggingSettings) :
    SetsUp opening settings.outputs (opening.opened settings) :=
  @setsUp_openAll opening [] (fun earlier other later h => by simp at h) settings.outputs

/-! ### What is given last -/

/-- What the last of the acts that give something gives. -/
def latest? {α : Type} (gives : Act → Option α) (acts : List Act) : Option α :=
  acts.reverse.findSome? gives

/-- The settings that an act puts in place, with the outputs that could be opened. -/
def Act.settings? : Act → Option LoggingSettings
  | .configure opening settings =>
    some { settings with outputs := (opening.opened settings).outputs }
  | _ => none

/-- The run that is at hand by an act: one that starts, or none at an end. -/
def Act.run? : Act → Option (Option String)
  | .setRun fresh none => some (some fresh)
  | .setRun fresh (some id) => some (some (if id = "" then fresh else id))
  | .clearRun => some none
  | _ => none

/-- The teller that an act introduces under a key. -/
def Act.teller? (key : String) : Act → Option Teller
  | .introduce other teller => if other = key then some teller else none
  | _ => none

/-- The settings in place after acts; at first only what is out of the ordinary passes, and nothing
is set up. -/
def settingsAfter (acts : List Act) : LoggingSettings :=
  (latest? Act.settings? acts).getD { level := .warning, outputs := [] }

/-- The run at hand after acts. -/
def runAfter (acts : List Act) : Option String :=
  (latest? Act.run? acts).getD none

/-- The teller of a key after acts. -/
def tellerAfter (acts : List Act) (key : String) : Teller :=
  (latest? (Act.teller? key) acts).getD {}

section Latest

variable {α β : Type} {gives : Act → Option α}

theorem latest?_cons (act : Act) (acts : List Act) :
    latest? gives (act :: acts) = (latest? gives acts).or (gives act) := by
  rw [latest?, List.reverse_cons, List.findSome?_append]
  cases h : gives act <;> simp [latest?, h]

/-- What an act gives is what is given last. -/
theorem latest?_concat (gives : Act → Option α) {act : Act} {value : α}
    (h : gives act = some value) (acts : List Act) :
    latest? gives (acts ++ [act]) = some value := by
  rw [latest?, List.reverse_concat, List.findSome?_cons, h]

theorem latest?_map (f : α → β) (acts : List Act) :
    latest? (fun act => (gives act).map f) acts = (latest? gives acts).map f := by
  induction acts with
  | nil => rfl
  | cons act rest ih => rw [latest?_cons, latest?_cons, ih, Option.map_or]

/-- A trait that every act sets to what it gives, or else leaves alone, is what was given last. -/
theorem trait_afterAll (trait : Desk → α)
    (hstep : ∀ desk act, trait (desk.after act) = (gives act).getD (trait desk))
    (desk : Desk) (acts : List Act) :
    trait (desk.afterAll acts) = (latest? gives acts).getD (trait desk) := by
  induction acts generalizing desk with
  | nil => rfl
  | cons act rest ih =>
    calc trait (desk.afterAll (act :: rest))
        = (latest? gives rest).getD (trait (desk.after act)) := ih (desk.after act)
      _ = (latest? gives (act :: rest)).getD (trait desk) := by
        rw [hstep, latest?_cons, Option.getD_or]

end Latest

/-! ### Traits of a desk -/

/-- The level of all events and the outputs. -/
def arrangement (journal : Journal) : Level × List Output :=
  (journal.level, journal.outputs)

/-- The level of all events and the outputs by settings. -/
def arranged (settings : LoggingSettings) : Level × List Output :=
  (settings.level, settings.outputs.map (Output.ofSettings settings.level))

/-- An act changes the level and the outputs only by its settings. -/
theorem arrangement_after (desk : Desk) (act : Act) :
    (desk.after act).journal.arrangement =
      (act.settings?.map arranged).getD desk.journal.arrangement := by
  cases act <;> rfl

/-- An act changes the run only if it starts or ends one. -/
theorem run_after (desk : Desk) (act : Act) :
    (desk.after act).journal.run = act.run?.getD desk.journal.run := by
  cases act with
  | setRun fresh id =>
    -- only a text that is given and not empty is taken
    cases id with
    | none => rfl
    | some id => by_cases hid : id = "" <;> simp [Desk.after, setRun, Act.run?, hid]
  | configure | clearRun | introduce | tell | relay => rfl

/-- An act changes a teller only by introducing one under its key. -/
theorem teller_after (key : String) (desk : Desk) (act : Act) :
    (desk.after act).teller key = (act.teller? key).getD (desk.teller key) := by
  cases act with
  | introduce other teller =>
    by_cases hother : other = key <;> simp [Desk.after, Desk.teller, Act.teller?, hother]
  | configure | setRun | clearRun | tell | relay => rfl

/-- The level and the outputs after some acts are those of the latest settings. -/
theorem arrangement_afterAll (acts : List Act) :
    (Desk.afterAll {} acts).journal.arrangement = arranged (settingsAfter acts) := by
  rw [trait_afterAll (·.journal.arrangement) arrangement_after, latest?_map, settingsAfter]
  exact Option.getD_map arranged { level := .warning, outputs := [] } _

/-- The run after some acts is the one that was started or ended last. -/
theorem run_afterAll (acts : List Act) :
    (Desk.afterAll {} acts).journal.run = runAfter acts :=
  trait_afterAll (·.journal.run) run_after {} acts

/-- The teller of a key is the one that was introduced last. -/
theorem teller_afterAll (acts : List Act) (key : String) :
    (Desk.afterAll {} acts).teller key = tellerAfter acts key :=
  trait_afterAll (·.teller key) (teller_after key) {} acts

/-! ### The lines of a record -/

/-- The outputs that a level reaches: if it reaches that of all events, those whose own level, or
else that of all events, it reaches. -/
def reached (settings : LoggingSettings) (level : Level) : List OutputSettings :=
  if settings.level.number ≤ level.number then
    settings.outputs.filter fun output =>
      (output.level.getD settings.level).number ≤ level.number
  else []

/-- The line of a record on an output. -/
def Record.lineFor (record : Record) (output : OutputSettings) : Line where
  destination := output.destination
  text :=
    match output.format with
    | .json => record.jsonLine ++ "\n"
    | .console => record.consoleLine ++ "\n"

/-- The line of a record where no output is set up, if it is out of the ordinary. -/
def lastResort (settings : LoggingSettings) (record : Record) : List Line :=
  if settings.outputs = [] ∧ settings.level.number ≤ record.level.number ∧
      Level.warning.number ≤ record.level.number then
    [⟨"stderr", record.plain ++ "\n"⟩]
  else []

/-- An output writes the records that reach its level, or that of all events if it has none. -/
theorem line?_ofSettings (level : Level) (output : OutputSettings) (record : Record) :
    (Output.ofSettings level output).line? record =
      if (output.level.getD level).number ≤ record.level.number then some (record.lineFor output)
      else none := by
  by_cases hreached : (output.level.getD level).number ≤ record.level.number
  · cases hformat : output.format <;>
      simp [Output.line?, Output.ofSettings, reaches, Record.lineFor, hreached, hformat]
  · simp [Output.line?, Output.ofSettings, reaches, hreached]

/-- The outputs that a record reaches write it once each, in their order. -/
theorem filterMap_line? (level : Level) (outputs : List OutputSettings) (record : Record) :
    (outputs.map (Output.ofSettings level)).filterMap (fun output => output.line? record) =
      (outputs.filter fun output =>
        (output.level.getD level).number ≤ record.level.number).map record.lineFor := by
  induction outputs with
  | nil => rfl
  | cons output rest ih =>
    rw [List.map_cons, List.filterMap_cons, line?_ofSettings, ih]
    by_cases hreached : (output.level.getD level).number ≤ record.level.number <;>
      simp [hreached]

/-- A record goes to the outputs of the settings that it reaches, and without outputs to the
standard error stream. -/
theorem write_of_arranged {journal : Journal} {settings : LoggingSettings}
    (h : journal.arrangement = arranged settings) (record : Record) :
    journal.write record =
      (reached settings record.level).map record.lineFor ++ lastResort settings record := by
  obtain ⟨hlevel, houtputs⟩ := Prod.mk.inj h
  rw [write, hlevel, houtputs, reached, lastResort]
  by_cases hall : settings.level.number ≤ record.level.number
  · by_cases hnone : settings.outputs = []
    · simp [hall, hnone, reaches]
    · rw [filterMap_line?]
      simp [hall, hnone, reaches]
  · simp [hall, reaches]

/-- The lines of an act are those of its record by the latest settings. -/
theorem lines_of_record? {acts : List Act} {act : Act} {record : Record}
    (h : (Desk.afterAll {} acts).record? act = some record) :
    (Desk.afterAll {} acts).lines act =
      (reached (settingsAfter acts) record.level).map record.lineFor ++
        lastResort (settingsAfter acts) record := by
  rw [Desk.lines, h]
  exact write_of_arranged (arrangement_afterAll acts) record

/-! ### The run of a record -/

/-- The closing fields have a run identifier just if there is a run. -/
theorem get?_run_closing (level : Level) (teller stamp : String) (run : Option String) :
    Fields.get? (closing level teller stamp run).reverse "run_id" = run.map .text := by
  cases run <;> rfl

/-- An event belongs to the run at hand; without one it has what its own fields say last. -/
theorem get?_run_ofEvent (teller : String) (level : Level) (name : String) (fields : Fields)
    (stamp : String) (run : Option String) :
    (Record.ofEvent teller level name fields stamp run).fields.get? "run_id" =
      (run.map .text).or (Fields.get? fields.reverse "run_id") := by
  have hown : (Fields.put fields.distinct "event" (.text name)).get? "run_id" =
      Fields.get? fields.reverse "run_id" := by
    rw [Fields.get?_put, if_neg (by decide), Fields.get?_distinct]
  simp only [Record.ofEvent]
  rw [Fields.get?_putAll, get?_run_closing, hown]

theorem get?_run_ofMessage (teller : String) (level : Level) (message stamp : String)
    (run : Option String) :
    (Record.ofMessage teller level message stamp run).fields.get? "run_id" = run.map .text := by
  have hown : Fields.get? [("event", .text message)] "run_id" = none := by
    rw [Fields.get?_cons, if_neg (show ¬"event" = "run_id" by decide), Fields.get?_nil]
  simp only [Record.ofMessage]
  rw [Fields.get?_putAll, get?_run_closing, hown, Option.or_none]

/-- No field is written twice in the record of an event. -/
theorem nodup_names_ofEvent (teller : String) (level : Level) (name : String) (fields : Fields)
    (stamp : String) (run : Option String) :
    (Record.ofEvent teller level name fields stamp run).fields.names.Nodup := by
  have hown : fields.distinct.names.Nodup :=
    Fields.nodup_names_putAll Fields.proper_nil.nodup fields
  exact Fields.nodup_names_putAll (Fields.nodup_names_put hown _ _) _

theorem nodup_names_ofMessage (teller : String) (level : Level) (message stamp : String)
    (run : Option String) :
    (Record.ofMessage teller level message stamp run).fields.names.Nodup := by
  have hown : (Fields.names [("event", .text message)]).Nodup := List.nodup_singleton "event"
  exact Fields.nodup_names_putAll hown _

/-! ### Lines in order -/

/-- The texts for a file, which some destinations name. -/
def textsFor (names : String → Bool) (lines : List Line) : List String :=
  (lines.filter fun line => names line.destination).map (·.text)

theorem textsFor_append (names : String → Bool) (lines more : List Line) :
    textsFor names (lines ++ more) = textsFor names lines ++ textsFor names more := by
  simp [textsFor]

/-- The lines of later acts depend on the earlier acts through the desk only. -/
theorem Desk.linesOf_append (desk : Desk) (acts more : List Act) :
    desk.linesOf (acts ++ more) = desk.linesOf acts ++ (desk.afterAll acts).linesOf more := by
  induction acts generalizing desk with
  | nil => rfl
  | cons act rest ih =>
    have hrest := ih (desk.after act)
    calc desk.lines act ++ (desk.after act).linesOf (rest ++ more)
        = desk.lines act ++ ((desk.after act).linesOf rest ++
            ((desk.after act).afterAll rest).linesOf more) := by rw [hrest]
      _ = _ := (List.append_assoc _ _ _).symm

/-! ### Routing -/

/-- The system opens every file but one. -/
def refusing (refused : String) : Opening := fun _ destination =>
  if destination = refused then some ⟨"IsADirectoryError", "[Errno 21] Is a directory: '/'"⟩
  else none

example :
    let acts : List Act :=
      [.introduce "early" {},
        .configure (refusing "/") { level := .debug, outputs := [{ destination := "/a" }] },
        .configure (refusing "/")
          { level := .info
            outputs := [{ destination := "/b", level := some .error }, { destination := "/c" },
              { destination := "/c", level := some .debug }, { destination := "/" },
              { destination := "/d" }] }]
    ((Desk.afterAll {} acts).lines (.tell "early" .info "one" [] "now")).map (·.destination) =
      ["/c", "/c"] := by
  decide +kernel

end ShellSurvey.Journal
