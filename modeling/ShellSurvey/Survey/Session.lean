import ShellSurvey.Survey.Reading

/-!
# Sessions

A session keeps what is costly across scripts: the loaded language and the compiled queries. Its
state shows only in the event of loading, which comes once; the facts of a script do not depend
on what was surveyed before.

A file is surveyed if it is there, is not too large, and is a script by its name or by its first
line. Its text is the decoded bytes.
-/

namespace ShellSurvey

/-- What is kept across scripts. -/
structure Session where
  /-- The language, once it is loaded. -/
  language : Option Language := none
  /-- The queries compiled so far. -/
  compiled : List (Query.Category × Query.Finder) := []

/-- What a step of a session gives: a result, the session afterwards, and the events. -/
structure Step (ε α : Type) where
  /-- The result. -/
  result : Except ε α
  /-- The session afterwards. -/
  session : Session
  /-- The events in order. -/
  events : List Event := []

namespace Session

/-- Loads the language of a grammar, unless one is loaded. -/
def load (grammar : Grammar) (session : Session) : Step Survey.Failure Language :=
  let loaded : Event := .grammarLoaded grammar.id grammar.parser.module
  match session.language with
  | some language => ⟨.ok language, session, []⟩
  | none =>
    match grammar.supply with
    | .language language => ⟨.ok language, { session with language := some language }, [loaded]⟩
    | .broken found trouble =>
      -- The event tells that the package was found, not that it gave a language.
      ⟨.error (.trouble trouble), session, if found then [loaded] else []⟩
    | .missing =>
      ⟨.error (.fault (.grammarMissing grammar.parser.module grammar.parser.package)), session, []⟩

/-- The query compiled for a category. -/
def query? (session : Session) (category : Query.Category) : Option Query.Finder :=
  (session.compiled.find? (fun entry => entry.1 = category)).map (·.2)

/-- Compiles the query of a category, unless it is compiled; none if there is no query. Whatever
keeps the language from being loaded is reported as a query that does not compile. -/
def compile (grammar : Grammar) (category : Query.Category) (session : Session) :
    Step Cause (Option Query.Finder) :=
  match session.query? category with
  | some query => ⟨.ok (some query), session, []⟩
  | none =>
    match grammar.queryText? category with
    | none => ⟨.ok none, session, []⟩
    | some text =>
      let step := session.load grammar
      match step.result with
      | .error failure =>
        ⟨.error (.queryInvalid category.name failure.text), step.session, step.events⟩
      | .ok language =>
        match language.compile text with
        | .error reason =>
          ⟨.error (.queryInvalid category.name reason), step.session, step.events⟩
        | .ok query =>
          ⟨.ok (some query),
            { step.session with compiled := step.session.compiled ++ [(category, query)] },
            step.events⟩

end Session

namespace Survey

/-- The categories whose queries a survey runs, in order. -/
def plan (transforms : Transforms) (settings : ExtractionSettings) : List Query.Category :=
  (if transforms.comment.isSome then [.docComments] else []) ++ [.functions] ++
    (if transforms.imported.isSome then [.imports] else []) ++ [.exports] ++
    (if settings.includeStrings then [.strings] else [])

/-- No matches. -/
def Found.none : Found := fun _ => []

/-- The matches with those of one category. -/
def Found.put (found : Found) (category : Query.Category) (all : List Captures) : Found :=
  fun other => if other = category then all else found other

/-- What running queries gives: the matches so far, the reason to stop early if there is one,
the session afterwards and the events. -/
structure Gathered where
  /-- The matches. -/
  found : Found
  /-- The reason to stop. -/
  cause : Option Cause
  /-- The session afterwards. -/
  session : Session
  /-- The events in order. -/
  events : List Event

/-- Runs the queries of the categories up to the first that does not compile. -/
def gather (grammar : Grammar) (bytes : List UInt8) (root : Node) :
    List Query.Category → Found → Session → Gathered
  | [], found, session => ⟨found, none, session, []⟩
  | category :: rest, found, session =>
    let step := session.compile grammar category
    match step.result with
    | .error cause => ⟨found, some cause, step.session, step.events⟩
    | .ok query =>
      let matched :=
        match query with
        | some query => query bytes root
        | none => []
      let more := gather grammar bytes root rest (found.put category matched) step.session
      { more with events := step.events ++ more.events }

/-- Surveys a script with its tree. -/
def run (grammar : Grammar) (settings : ExtractionSettings) (script : Script) (root : Node)
    (session : Session) : Step Failure Facts :=
  let loading := session.load grammar
  match loading.result with
  | .error failure => ⟨.error failure, loading.session, loading.events⟩
  | .ok _ =>
    let errorCount := root.tally.faults
    let gathered :=
      gather grammar script.bytes root (plan grammar.transforms settings) Found.none
        loading.session
    let told :=
      loading.events ++ gathered.events ++ events grammar script errorCount gathered.found
    match gathered.cause with
    | some cause => ⟨.error (.fault cause), gathered.session, told⟩
    | none =>
      match readFacts grammar settings script errorCount gathered.found with
      | .error absent =>
        ⟨.error absent.failure, gathered.session,
          loading.events ++ errorEvents script.file errorCount⟩
      | .ok facts => ⟨.ok facts, gathered.session, told ++ [doneEvent facts]⟩

/-- Surveys scripts with their trees, one after the other in one session. -/
def runAll (grammar : Grammar) (settings : ExtractionSettings) :
    List (Script × Node) → Session → List (Step Failure Facts)
  | [], _ => []
  | (script, root) :: rest, session =>
    let step := run grammar settings script root session
    step :: runAll grammar settings rest step.session

/-! ### Files -/

/-- The first line of a file. -/
def firstLine (bytes : List UInt8) : List Char :=
  Text.Utf8.decode (bytes.takeWhile (· != 10))

/-- The content of the script at a path. -/
def readScript (settings : ExtractionSettings) (volume : Volume) (path : Path) :
    Except Failure Content :=
  match volume.look path with
  | .error error => .error (.file error path.text)
  | .ok .hidden => .error (.file .denied path.text)
  | .ok (.directory _) => .error (.file .isDirectory path.text)
  | .ok (.file content) =>
    let size := content.bytes.length
    if settings.limit < size then .error (.fault (.fileTooLarge path.text size settings.limit))
    else if Grammar.isScript path (firstLine content.bytes) then .ok content
    else .error (.fault (.unsupportedFile path.text))

/-- Surveys the script at a path. -/
def runFile (grammar : Grammar) (settings : ExtractionSettings) (volume : Volume) (path : Path)
    (session : Session) : Step Failure Facts :=
  match readScript settings volume path with
  | .error failure => ⟨.error failure, session, []⟩
  | .ok content =>
    run grammar settings (Script.ofText path.text (Text.Utf8.decode content.bytes)) content.root
      session

end Survey

end ShellSurvey
