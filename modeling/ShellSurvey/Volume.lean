import ShellSurvey.Grammar.Detect
import ShellSurvey.Text.Quoted
import ShellSurvey.Tree.Node

/-!
# Volumes

A volume is what a survey sees of a file system: directories and files, each file with its bytes
and the tree of its text. Of some entries only the name is seen, since the system refuses to tell
anything else about them. Paths are followed part by part from the top or from the current
directory.

A survey goes through the entries below a directory in order, and stops at the first one that it is
not told about (`Volume.list`).
-/

namespace ShellSurvey

/-- What a file holds. -/
structure Content where
  /-- The bytes. -/
  bytes : List UInt8
  /-- The tree of the text. -/
  root : Node

/-- What a name stands for. -/
inductive Entry where
  /-- A file. -/
  | file (content : Content)
  /-- A directory with its entries by name. -/
  | directory (children : List (List Char × Entry))
  /-- Something that the system tells nothing about. -/
  | hidden

/-- A file system as a survey sees it. -/
structure Volume where
  /-- The entry at the top. -/
  top : Entry
  /-- The way from the top to the current directory. -/
  here : List (List Char)

/-- Why a file cannot be read. -/
inductive FileError where
  /-- There is nothing at the path. -/
  | missing
  /-- A part before the last one is a file. -/
  | blocked
  /-- There is a directory at the path. -/
  | isDirectory
  /-- The system refuses to tell what is at the path. -/
  | denied
  deriving DecidableEq, Repr

/-- The message of an error at a path. -/
def FileError.message (error : FileError) (path : String) : String :=
  let reason :=
    match error with
    | .missing => "[Errno 2] No such file or directory: "
    | .blocked => "[Errno 20] Not a directory: "
    | .isDirectory => "[Errno 21] Is a directory: "
    | .denied => "[Errno 13] Permission denied: "
  reason ++ String.ofList (Text.quoted path.toList)

namespace Entry

/-- The directory without entries. -/
def empty : Entry := .directory []

/-- The entry of that name in a directory. -/
def child? (entry : Entry) (name : List Char) : Option Entry :=
  match entry with
  | .directory children => (children.find? (fun child => child.1 == name)).map (·.2)
  | _ => none

/-- Puts an entry under a name into a directory; anything else becomes a directory first. -/
def putChild (entry : Entry) (name : List Char) (child : Entry) : Entry :=
  match entry with
  | .directory children =>
    if children.any (fun other => other.1 == name) then
      .directory (children.map (fun other => if other.1 == name then (name, child) else other))
    else .directory (children ++ [(name, child)])
  | _ => .directory [(name, child)]

/-- Puts an entry at the end of a way, making the directories on it. A directory that is there
already stays if it is put again. -/
def put (entry : Entry) (way : List (List Char)) (leaf : Entry) : Entry :=
  match way with
  | [] =>
    match entry, leaf with
    | .directory children, .directory [] => .directory children
    | _, other => other
  | name :: rest =>
    entry.putChild name (((entry.child? name).getD empty).put rest leaf)

mutual

/-- The ways to all that is no directory below an entry, in the order of its entries. -/
def leaves : Entry → List (List (List Char))
  | .directory children => leavesOf children
  | .file _ => [[]]
  | .hidden => [[]]
termination_by structural entry => entry

/-- The ways to all that is no directory below the entries of a directory. -/
def leavesOf : List (List Char × Entry) → List (List (List Char))
  | [] => []
  | child :: rest => (leaves child.2).map (child.1 :: ·) ++ leavesOf rest
termination_by structural children => children

end

/-- An entry, if the system tells about it. -/
def seen : Entry → Except FileError Entry
  | .hidden => .error .denied
  | entry => .ok entry

/-- Follows the parts of a way from an entry, given the entries above it. An empty part and a dot
stay at a directory, and two dots go up. -/
def follow : List Entry → Entry → List (List Char) → Except FileError Entry
  | _, here, [] => here.seen
  | above, here, part :: rest =>
    match here with
    | .file _ => .error .blocked
    | .hidden => .error .denied
    | .directory _ =>
      if part = [] ∨ part = ['.'] then follow above here rest
      else if part = ['.', '.'] then
        match above with
        | [] => follow [] here rest
        | parent :: higher => follow higher parent rest
      else
        match here.child? part with
        | some child => follow (here :: above) child rest
        | none => .error .missing

end Entry

namespace Volume

/-- The entry at the pieces of a path, from the top or from the current directory. -/
def lookPieces (volume : Volume) (absolute : Bool) (pieces : List (List Char)) :
    Except FileError Entry :=
  volume.top.follow [] (if absolute then pieces else volume.here ++ pieces)

/-- The way from the top to a path, going up at two dots. -/
def way (volume : Volume) (path : Path) : List (List Char) :=
  (if path.isAbsolute then path.parts else volume.here ++ path.parts).foldl (fun acc part =>
    if part = ['.', '.'] then acc.dropLast else acc ++ [part]) []

/-- The volume with an entry at a path, and with the directories that the path goes through. -/
def insert (volume : Volume) (path : Path) (entry : Entry) : Volume :=
  let fronts := (List.range path.parts.length).map (fun n =>
    volume.way { path with parts := path.parts.take n })
  { volume with
    top := (fronts.foldl (fun top front => top.put front .empty) volume.top).put
      (volume.way path) entry }

/-- The entry at a path. -/
def look (volume : Volume) (path : Path) : Except FileError Entry :=
  volume.lookPieces path.isAbsolute path.parts

/-- The entry that a text names, taken as it is written: a slash at its end asks for a directory,
and an empty text names nothing. -/
def lookText (volume : Volume) (text : List Char) : Except FileError Entry :=
  if text.isEmpty then .error .missing
  else volume.lookPieces (text.head? == some '/') (Path.pieces text)

/-- Whether there is a directory at a path. -/
def isDirectory (volume : Volume) (path : Path) : Bool :=
  match volume.look path with
  | .ok (.directory _) => true
  | _ => false

/-- Whether a way comes no later than another one, part by part. -/
def wayLe (a b : List (List Char)) : Bool :=
  !decide (b < a)

/-- What going through the entries of directories gives. -/
structure Listing where
  /-- The files to survey, in order. -/
  files : List Path := []
  /-- The entry at which it stops, since the system does not tell about it. -/
  stop : Option Path := none
  deriving DecidableEq

/-- Goes through what is at the paths, in order: scripts are told by their names alone, and nothing
is seen behind an entry that the system does not tell about. -/
def sift (volume : Volume) : List Path → Listing
  | [] => {}
  | path :: rest =>
    match volume.look path with
    | .error .denied => { stop := some path }
    | .ok (.file _) =>
      let more := volume.sift rest
      if Grammar.isScriptPath path then { more with files := path :: more.files } else more
    | _ => volume.sift rest

/-- The files to survey for a path: the scripts in a directory, or else the path itself. -/
def list (volume : Volume) (path : Path) : Listing :=
  match volume.look path with
  | .ok (.directory children) =>
    let ways := (Entry.directory children).leaves.mergeSort wayLe
    volume.sift (ways.map (fun way => { path with parts := path.parts ++ way }))
  | .error .denied => { stop := some path }
  | _ => { files := [path] }

/-- The files to survey for several paths. -/
def expand (volume : Volume) : List Path → Listing
  | [] => {}
  | path :: rest =>
    let first := volume.list path
    match first.stop with
    | some _ => first
    | none =>
      let more := volume.expand rest
      { more with files := first.files ++ more.files }

end Volume

end ShellSurvey
