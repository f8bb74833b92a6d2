import ShellSurvey.Text.Split

/-!
# Paths

A path is a root, perhaps none, and parts. Slashes separate the parts; empty parts and parts
that are a single dot are dropped, while a part of two dots is kept. Exactly two slashes at the
front are a root of their own.
-/

namespace ShellSurvey

/-- Where a path starts. -/
inductive Root where
  /-- At the current directory. -/
  | here
  /-- At `/`. -/
  | single
  /-- At `//`. -/
  | double
  deriving DecidableEq, Repr

/-- A path. -/
structure Path where
  /-- Where it starts. -/
  root : Root := .here
  /-- Its parts in order. -/
  parts : List (List Char) := []
  deriving DecidableEq, Repr

namespace Path

/-- The pieces of a text between slashes. -/
def pieces (text : List Char) : List (List Char) :=
  Text.splitWhere (· == '/') text

/-- Whether a piece between slashes is a part of a path. -/
def isPart (piece : List Char) : Bool :=
  !piece.isEmpty && piece != ['.']

/-- The root that a text starts with. -/
def rootOf : List Char → Root
  | '/' :: '/' :: '/' :: _ => .single
  | '/' :: '/' :: _ => .double
  | '/' :: _ => .single
  | _ => .here

/-- The path that a text denotes. -/
def ofChars (text : List Char) : Path :=
  ⟨rootOf text, (pieces text).filter isPart⟩

/-- The path that a text denotes. -/
def ofString (text : String) : Path :=
  ofChars text.toList

/-- The characters of a root. -/
def rootChars : Root → List Char
  | .here => []
  | .single => ['/']
  | .double => ['/', '/']

/-- The text of a path; the current directory is a dot. -/
def chars (path : Path) : List Char :=
  match path.root, path.parts with
  | .here, [] => ['.']
  | root, parts => rootChars root ++ Text.joinWith '/' parts

/-- The text of a path. -/
def text (path : Path) : String :=
  String.ofList path.chars

/-- Whether a path starts at a root. -/
def isAbsolute (path : Path) : Bool :=
  path.root != .here

/-- The last part, empty if there is none. -/
def name (path : Path) : List Char :=
  path.parts.getLast?.getD []

/-- The end of a name from its last dot on, if that dot is neither its first nor its last
character; else empty. -/
def suffixOf (name : List Char) : List Char :=
  let after := (name.reverse.takeWhile (· != '.')).reverse
  let before := name.take (name.length - after.length - 1)
  if after.length < name.length && !after.isEmpty && !before.isEmpty then '.' :: after else []

/-- The suffix of the last part. -/
def suffix (path : Path) : List Char :=
  suffixOf path.name

/-- The path with one more part. -/
def child (path : Path) (part : List Char) : Path :=
  { path with parts := path.parts ++ [part] }

end Path

end ShellSurvey
