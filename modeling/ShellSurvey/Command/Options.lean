import ShellSurvey.Text.Quoted

/-!
# Options

How the words of a command line are read. A word that starts with a dash and is longer than it is
an option: either the name of one, with a value behind an equals sign if it takes one, or a dash
with several one-letter options. Two dashes end the options. Where arguments may stand between
options all words are read; otherwise the first argument ends the options too.
-/

namespace ShellSurvey.Command

/-- An option of a command. -/
inductive Opt where
  /-- Show the version. -/
  | version
  /-- Show the help. -/
  | help
  /-- Tell all events. -/
  | verbose
  /-- Write JSON. -/
  | json
  /-- Read settings from a file. -/
  | config
  deriving DecidableEq, Repr

/-- Whether an option takes a value. -/
def Opt.takesValue : Opt → Bool
  | .config => true
  | _ => false

/-- Whether an option is acted upon before all others. -/
def Opt.isEager : Opt → Bool
  | .version => true
  | .help => true
  | _ => false

/-- The names of the options of a command. -/
abbrev OptionNames := List (String × Opt)

/-- The options of the program. -/
def programOptions : OptionNames :=
  [("--version", .version), ("-v", .verbose), ("--verbose", .verbose), ("--help", .help)]

/-- The options of the survey command. -/
def surveyOptions : OptionNames :=
  [("--json", .json), ("--config", .config), ("--help", .help)]

/-- What is wrong with the words of a command line. -/
inductive Misuse where
  /-- There is no option of that name. -/
  | noSuchOption (name : String)
  /-- The value of an option is missing. -/
  | valueMissing (name : String)
  /-- An option has a value but takes none. -/
  | valueGiven (name : String)
  deriving DecidableEq, Repr

/-- A text between quotes. -/
def quote (text : String) : String :=
  String.ofList (Text.quoted text.toList)

/-- The message of a misuse. -/
def Misuse.message : Misuse → String
  | .noSuchOption name => "No such option " ++ quote name ++ "."
  | .valueMissing name => "Option " ++ quote name ++ " requires an argument."
  | .valueGiven name => "Option " ++ quote name ++ " does not take a value."

/-- The words of a command line as they were understood. -/
structure Reading where
  /-- The options in order, with their values. -/
  uses : List (Opt × String) := []
  /-- The arguments in order. -/
  arguments : List String := []
  deriving DecidableEq, Repr

/-- The reading with one more option in front. -/
def Reading.use (opt : Opt) (value : String) (reading : Reading) : Reading :=
  { reading with uses := (opt, value) :: reading.uses }

/-- The reading with more options in front. -/
def Reading.useAll (opts : List Opt) (reading : Reading) : Reading :=
  opts.foldr (fun opt r => r.use opt "") reading

/-- The reading with one more argument in front. -/
def Reading.argument (word : String) (reading : Reading) : Reading :=
  { reading with arguments := word :: reading.arguments }

/-- The option of that name. -/
def find? (names : OptionNames) (name : String) : Option Opt :=
  (names.find? (fun entry => entry.1 == name)).map (·.2)

/-- Whether a name is a dash and one letter. -/
def isShort (name : String) : Bool :=
  name.toList.length == 2

/-- The options of one letter each behind a dash. -/
def cluster (names : OptionNames) : List Char → Except Misuse (List Opt)
  | [] => .ok []
  | c :: rest =>
    let name := String.ofList ['-', c]
    match find? names name with
    | none => .error (.noSuchOption name)
    | some opt => (cluster names rest).map (opt :: ·)

/-- What an option word says. -/
inductive OptionWord where
  /-- These options, none of which takes a value. -/
  | plain (opts : List Opt)
  /-- An option with its value. -/
  | valued (opt : Opt) (value : String)
  /-- An option of that name whose value is the next word. -/
  | waiting (opt : Opt) (name : String)

/-- Whether a word is an option. -/
def isOption (word : List Char) : Bool :=
  word.head? == some '-' && 1 < word.length

/-- The name of an option word, and what follows its first equals sign. -/
def splitValue (word : List Char) : List Char × Option (List Char) :=
  match word.dropWhile (· != '=') with
  | _ :: value => (word.takeWhile (· != '='), some value)
  | [] => (word, none)

/-- Reads an option word. -/
def readOption (names : OptionNames) (word : List Char) : Except Misuse OptionWord :=
  let parts := splitValue word
  let name := String.ofList parts.1
  match (if isShort name then none else find? names name) with
  | some opt =>
    match opt.takesValue, parts.2 with
    | true, some value => .ok (.valued opt (String.ofList value))
    | true, none => .ok (.waiting opt name)
    | false, some _ => .error (.valueGiven name)
    | false, none => .ok (.plain [opt])
  | none =>
    if word.take 2 == ['-', '-'] then .error (.noSuchOption name)
    else (cluster names (word.drop 1)).map .plain

/-- Reads the words of a command line; `mixed` tells whether arguments may stand between
options. -/
def read (names : OptionNames) (mixed : Bool) : List String → Except Misuse Reading
  | [] => .ok {}
  | word :: rest =>
    if word == "--" then .ok { arguments := rest }
    else if isOption word.toList then
      match readOption names word.toList with
      | .error misuse => .error misuse
      | .ok (.plain opts) => (read names mixed rest).map (Reading.useAll opts)
      | .ok (.valued opt value) => (read names mixed rest).map (Reading.use opt value)
      | .ok (.waiting opt name) =>
        match rest with
        | [] => .error (.valueMissing name)
        | value :: more => (read names mixed more).map (Reading.use opt value)
    else if mixed then (read names mixed rest).map (Reading.argument word)
    else .ok { arguments := word :: rest }

/-- The texts on a command line that may name files: its words, and the values in them. -/
def mentions (words : List String) : List String :=
  words.flatMap (fun word =>
    word :: ((splitValue word.toList).2.map String.ofList).toList)

/-- Whether an option is used. -/
def Reading.has (reading : Reading) (opt : Opt) : Bool :=
  reading.uses.any (fun entry => entry.1 == opt)

/-- The last value of an option. -/
def Reading.value? (reading : Reading) (opt : Opt) : Option String :=
  (reading.uses.reverse.find? (fun entry => entry.1 == opt)).map (·.2)

/-- The first option that is acted upon before all others. -/
def Reading.eager? (reading : Reading) : Option Opt :=
  (reading.uses.find? (fun entry => entry.1.isEager)).map (·.1)

end ShellSurvey.Command
