import ShellSurvey.Proofs.Survey.Session
import ShellSurvey.Proofs.Text.Lines
import ShellSurvey.Survey.Session
import ShellSurvey.Tree.Data

/-!
# Which files are surveyed

A file is judged by its size, and then by its name and the first line of its bytes. That line is
cut off and read on its own, while a survey reads all bytes at once; both see the same text
(`firstLine_eq`). The three outcomes exclude each other, since no survey fails for a reason that is
one of the file (`code_of_run`).
-/

namespace ShellSurvey.Survey

variable {grammar : Grammar} {settings : ExtractionSettings} {session : Session} {volume : Volume}
  {path : Path} {content : Content}

/-! ### The reasons of a survey -/

/-- A step fails with a fault of that code. -/
def FailsWith {α : Type} (step : Step Failure α) (code : Code) : Prop :=
  ∃ cause, step.result = .error (.fault cause) ∧ cause.fault.code = code

/-- A fault in loading is a missing grammar. -/
theorem code_of_load {cause : Cause} (h : (session.load grammar).result = .error (.fault cause)) :
    cause.fault.code = .grammarMissing := by
  obtain ⟨language, -, hload⟩ | ⟨language, -, -, hload⟩ | ⟨failure, _, -, hfails, -, hload⟩ :=
    Session.load_cases grammar session
  · rw [hload] at h
    cases h
  · rw [hload] at h
    cases h
  · rw [hload] at h
    obtain rfl := Except.error.inj h
    rw [Grammar.loaded] at hfails
    split at hfails
    · cases hfails
    · cases hfails
    · cases hfails
      rfl

/-- Whatever keeps a query from being compiled is reported as an invalid query. -/
theorem code_of_compile {category : Query.Category} {cause : Cause}
    (h : (session.compile grammar category).result = .error cause) :
    cause.fault.code = .queryInvalid := by
  obtain ⟨query, -, hcompile⟩ | ⟨-, -, hcompile⟩ | ⟨text, other, -, -, -, hcompile⟩ |
    ⟨text, language, reason, -, -, -, -, hcompile⟩ |
    ⟨text, language, query, -, -, -, -, hcompile⟩ := Session.compile_cases grammar category session
  · rw [hcompile] at h
    cases h
  · rw [hcompile] at h
    cases h
  · rw [hcompile] at h
    cases h
    rfl
  · rw [hcompile] at h
    cases h
    rfl
  · rw [hcompile] at h
    cases h

/-- Running queries fails for an invalid query only. -/
theorem code_of_gather {bytes : List UInt8} {root : Node} {categories : List Query.Category}
    {found : Found} {cause : Cause}
    (h : (gather grammar bytes root categories found session).cause = some cause) :
    cause.fault.code = .queryInvalid := by
  induction categories generalizing found session with
  | nil => cases h
  | cons category rest ih =>
    rw [gather] at h
    cases hresult : (session.compile grammar category).result with
    | error other =>
      simp only [hresult, Option.some.injEq] at h
      exact h ▸ code_of_compile hresult
    | ok query =>
      simp only [hresult] at h
      exact ih h

/-- Whatever a session keeps, a survey fails for want of a language or of a query. -/
theorem code_of_run {script : Script} {root : Node} {code : Code}
    (h : FailsWith (run grammar settings script root session) code) :
    code = .grammarMissing ∨ code = .queryInvalid := by
  obtain ⟨cause, hresult, rfl⟩ := h
  rw [run] at hresult
  cases hload : (session.load grammar).result with
  | error failure =>
    simp only [hload, Except.error.injEq] at hresult
    exact .inl (code_of_load (hresult ▸ hload))
  | ok language =>
    simp only [hload, readFacts_eq] at hresult
    split at hresult
    · rename_i other hcause
      simp only [Except.error.injEq, Failure.fault.injEq] at hresult
      exact .inr (hresult ▸ code_of_gather hcause)
    · cases hresult

/-! ### Files -/

/-- Decoding the first line gives the first line of the decoded text. -/
theorem firstLine_eq (bytes : List UInt8) :
    firstLine bytes = (Text.Utf8.decode bytes).takeWhile (· != '\n') :=
  (Text.Utf8.takeWhile_decode (c := '\n') rfl bytes).symm

/-- A file that is too large is refused before its name or content is looked at. -/
theorem runFile_of_large (h : volume.look path = .ok (.file content))
    (hsize : settings.limit < content.bytes.length) :
    runFile grammar settings volume path session =
      ⟨.error (.fault (.fileTooLarge path.text content.bytes.length settings.limit)), session,
        []⟩ := by
  simp only [runFile, readScript, h, if_pos hsize]

/-- A file that is not too large is surveyed just if it is a script. -/
theorem runFile_of_small (h : volume.look path = .ok (.file content))
    (hsize : content.bytes.length ≤ settings.limit) :
    runFile grammar settings volume path session =
      if Grammar.isScript path (firstLine content.bytes) then
        run grammar settings (Script.ofText path.text (Text.Utf8.decode content.bytes))
          content.root session
      else ⟨.error (.fault (.unsupportedFile path.text)), session, []⟩ := by
  simp only [runFile, readScript, h, if_neg (Nat.not_lt.mpr hsize)]
  split_ifs <;> rfl

theorem failsWith_error {cause : Cause} {code : Code} {events : List Event} :
    FailsWith (⟨.error (.fault cause), session, events⟩ : Step Failure Facts) code ↔
      cause.fault.code = code := by
  constructor
  · rintro ⟨other, hresult, rfl⟩
    cases hresult
    rfl
  · intro hcode
    exact ⟨cause, rfl, hcode⟩

/-- **A file is judged as the text that a survey would read.** It is too large exactly if its size
is above the limit, whatever it is called and holds. If it is not, it is unsupported exactly if
neither its name nor the first line of its text makes it a script; and else the survey is that of
its text under the path. The lines of any bytes, each read on its own, are the lines of the text of
all of them. -/
theorem runFile_of_decoded (h : volume.look path = .ok (.file content)) (grammar : Grammar)
    (settings : ExtractionSettings) (session : Session) :
    (FailsWith (runFile grammar settings volume path session) .fileTooLarge ↔
      settings.maxFileSizeMb * 1048576 < content.bytes.length) ∧
    (content.bytes.length ≤ settings.maxFileSizeMb * 1048576 →
      (FailsWith (runFile grammar settings volume path session) .unsupportedFile ↔
        Grammar.isScript path ((Text.Utf8.decode content.bytes).takeWhile (· != '\n')) = false) ∧
      (Grammar.isScript path ((Text.Utf8.decode content.bytes).takeWhile (· != '\n')) = true →
        runFile grammar settings volume path session =
          run grammar settings (Script.ofText path.text (Text.Utf8.decode content.bytes))
            content.root session)) ∧
    ∀ bytes, Text.splitWhere (· == '\n') (Text.Utf8.decode bytes) =
      (Text.splitWhere (· == 10) bytes).map Text.Utf8.decode := by
  have hlimit : settings.limit = settings.maxFileSizeMb * 1048576 := rfl
  rw [← hlimit, ← firstLine_eq]
  refine ⟨?_, fun hsmall => ?_, Text.Utf8.splitWhere_decode rfl⟩
  · rcases Nat.lt_or_ge settings.limit content.bytes.length with hlarge | hsmall
    · rw [runFile_of_large h hlarge, failsWith_error]
      exact iff_of_true rfl hlarge
    · refine iff_of_false ?_ (Nat.not_lt.mpr hsmall)
      rw [runFile_of_small h hsmall]
      split_ifs with hscript
      · intro hfails
        exact absurd (code_of_run hfails) (by decide)
      · rw [failsWith_error]
        intro hcode
        cases hcode
  · rw [runFile_of_small h hsmall]
    split_ifs with hscript
    · refine ⟨iff_of_false (fun hfails => ?_) (by simp [hscript]), fun _ => rfl⟩
      exact absurd (code_of_run hfails) (by decide)
    · refine ⟨iff_of_true ?_ (by simpa using hscript), fun htrue => absurd htrue hscript⟩
      rw [failsWith_error]
      rfl

/-- The bytes of a script whose first line ends in the middle of a character. -/
def brokenBytes : List UInt8 :=
  Text.Utf8.encode "#!/bin/sh -".toList ++ [0xE2, 0x82] ++ Text.Utf8.encode "\nx=1".toList

/-- A directory with that script and nothing else. -/
def brokenVolume : Volume where
  top := .directory [("run".toList, .file ⟨brokenBytes, Node.bare "program"⟩)]
  here := []

/-- The character that breaks off is replaced, the line feed behind it is not, and the file is a
script by the line before it. -/
theorem runFile_of_broken :
    Text.Utf8.decode brokenBytes = "#!/bin/sh -\uFFFD\nx=1".toList ∧
      runFile Grammar.standard {} brokenVolume (Path.ofString "run") {} =
        run Grammar.standard {} (Script.ofText "run" (Text.Utf8.decode brokenBytes))
          (Node.bare "program") {} := by
  have hlook : brokenVolume.look (Path.ofString "run") =
      .ok (.file ⟨brokenBytes, Node.bare "program"⟩) := rfl
  have hsmall : brokenBytes.length ≤ ({} : ExtractionSettings).maxFileSizeMb * 1048576 := by
    decide
  exact ⟨by decide +kernel,
    ((runFile_of_decoded hlook Grammar.standard {} {}).2.1 hsmall).2 (by decide +kernel)⟩

end ShellSurvey.Survey
