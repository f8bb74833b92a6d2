import ShellSurvey.Path
import ShellSurvey.Text.Blank
import ShellSurvey.Text.Case

/-!
# Detecting shell scripts

A file is a shell script by its name or by the interpreter that its first line names. These
tests do not look at the rest of the file.
-/

namespace ShellSurvey.Grammar

/-- The names by which the grammar is known. -/
def ids : List (List Char) :=
  [['b', 'a', 's', 'h'], ['s', 'h', 'e', 'l', 'l'], ['s', 'h']]

/-- The suffixes of shell scripts. -/
def suffixes : List (List Char) :=
  [['.', 's', 'h'], ['.', 'b', 'a', 's', 'h'], ['.', 'z', 's', 'h']]

/-- The names of shell scripts without such a suffix. -/
def fileNames : List (List Char) :=
  [".bashrc".toList, ".bash_profile".toList, ".bash_aliases".toList, ".profile".toList,
    ".zshrc".toList]

/-- The interpreters of shell scripts. -/
def interpreters : List (List Char) :=
  [['s', 'h'], ['b', 'a', 's', 'h'], ['d', 'a', 's', 'h'], ['k', 's', 'h'], ['z', 's', 'h']]

/-- The program that finds an interpreter by name. -/
def finder : List Char := ['e', 'n', 'v']

/-- Whether a name, in any case, is one of the grammar. -/
def isId (name : List Char) : Bool :=
  ids.contains (Text.lower name)

/-- Whether a suffix, in any case and with or without its dot, is one of shell scripts. -/
def isSuffix (suffix : List Char) : Bool :=
  let small := Text.lower suffix
  suffixes.contains (if small.head? == some '.' then small else '.' :: small)

/-- Whether a file is a shell script by its name. -/
def isScriptPath (path : Path) : Bool :=
  (!path.suffix.isEmpty && isSuffix path.suffix) || fileNames.contains path.name

/-- The interpreter that a first line names. -/
def interpreter? (line : List Char) : Option (List Char) :=
  match line with
  | '#' :: '!' :: rest =>
    match Text.words rest with
    | [] => none
    | word :: more =>
      let name := (Path.ofChars word).name
      if name = finder then
        (more.find? (fun argument => argument.head? != some '-')).map
          (fun argument => (Path.ofChars argument).name)
      else some name
  | _ => none

/-- Whether a first line names an interpreter of shell scripts. -/
def isScriptLine (line : List Char) : Bool :=
  match interpreter? line with
  | some name => interpreters.contains name
  | none => false

/-- Whether a file with the given first line is a shell script. -/
def isScript (path : Path) (firstLine : List Char) : Bool :=
  isScriptPath path || isScriptLine firstLine

end ShellSurvey.Grammar
