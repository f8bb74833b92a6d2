import ShellSurvey.Command.Run
import ShellSurvey.Tree.Data
import ShellSurvey.Value.Json.Reader
import Std.Time.Format

/-!
# The program

The program reads what its command line may name, calls `Command.run`, and writes the lines that
it gives. The tree of a script is read from a file beside it, which a parser has written; a
script without one has an empty tree.
-/

namespace ShellSurvey.Program

open Command

/-- The tree of the script at a path. -/
def readTree (path : String) : IO Node := do
  try
    let text ← IO.FS.readFile (path ++ ".tree.json")
    return ((Json.parse? text.toList).map Node.ofValue).getD (Node.bare "program")
  catch _ => return Node.bare "program"

/-- The file or directory at a path, if it can be read. -/
partial def readEntry (path : String) : IO (Option Entry) := do
  try
    let place := (← IO.currentDir) / path
    if ← place.isDir then
      let mut children := []
      for item in ← place.readDir do
        if let some child ← readEntry (path ++ "/" ++ item.fileName) then
          children := (item.fileName.toList, child) :: children
      return some (.directory children.reverse)
    let bytes ← IO.FS.readBinFile place
    return some (.file ⟨bytes.toList, ← readTree path⟩)
  catch _ => return none

/-- The volume with what is at the paths. -/
def readVolume (here : Path) (paths : List String) : IO Volume := do
  let mut volume : Volume := { top := Entry.empty.put here.parts .empty, here := here.parts }
  for path in paths do
    unless path.isEmpty do
      if let some entry ← readEntry path then
        volume := volume.insert (Path.ofString path) entry
  return volume

/-- The variables of the environment. -/
def readEnvironment : IO Settings.Environment := do
  try
    let bytes ← IO.FS.readBinFile "/proc/self/environ"
    let entries := (Text.splitWhere (· == '\x00') (Text.Utf8.decode bytes.toList)).map splitValue
    return entries.map (fun entry =>
      (String.ofList entry.1, String.ofList (entry.2.getD [])))
  catch _ => return []

/-- The settings file for all projects. -/
def readCommon (home : String) : IO Settings.SettingsFile := do
  let path := home ++ "/.config/shellfacts/config.yaml"
  try
    return ⟨path, some (← IO.FS.readFile path).toList⟩
  catch _ => return ⟨path, none⟩

/-- Writes a line to its destination; a file is made with the directories above it. -/
def writeLine (line : Journal.Line) : IO Unit := do
  match line.destination with
  | "stdout" => (← IO.getStdout).putStr line.text
  | "stderr" => (← IO.getStderr).putStr line.text
  | destination =>
    let place := (← IO.currentDir) / destination
    if let some above := place.parent then
      IO.FS.createDirAll above
    (← IO.FS.Handle.mk place .append).putStr line.text

/-- The message of an error that ends the program. -/
def escapeMessage : Escape → String
  | .settings error => error.message
  | .file error path => error.message path
  | .encoding flaw => flaw.message
  | .output refusal => refusal.text

/-- What the program finds in the world. -/
def readWorld (words : List String) : IO World := do
  let directory := toString (← IO.currentDir)
  let home := (← IO.getEnv "HOME").getD "/"
  let now ← Std.Time.PlainDateTime.now
  return {
    volume := ← readVolume (Path.ofString directory) (settingsName :: mentions words)
    directory := directory
    home := home
    common := ← readCommon home
    environment := ← readEnvironment
    stamp := now.format "uuuu-MM-dd HH:mm:ss"
    fresh := String.ofList (Text.hexDigits 12 (← IO.rand 0 (Nat.pow 16 12 - 1))) }

/-- Runs the program with the words of its command line. -/
def run (words : List String) : IO UInt32 := do
  let outcome := Command.run (← readWorld words) words
  outcome.lines.forM writeLine
  match outcome.ending with
  | .exit code => return code.toUInt32
  | .escape error =>
    (← IO.getStderr).putStrLn (escapeMessage error)
    return 1

end ShellSurvey.Program

/-- The entry point. -/
def main (words : List String) : IO UInt32 :=
  ShellSurvey.Program.run words
