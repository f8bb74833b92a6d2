import ShellSurvey.Directive
import ShellSurvey.Fault
import ShellSurvey.Grammar.Detect
import ShellSurvey.Import
import ShellSurvey.Param.Basic
import ShellSurvey.Query.Matches
import ShellSurvey.Survey.Failure
import ShellSurvey.Text.LineEnding

/-!
# Grammars

A grammar is what a survey needs to know of a language: the parser package, the text of a query
for each category, and the functions that turn captures into records. Any query and any of the
functions may be missing; the survey then leaves out what they would give.

A parser package gives a language: the texts that are queries over its trees, and what each of them
finds. A survey takes any language; the one at hand understands the five standard queries. A package
may be missing, and one that is there may fail to give a language.
-/

namespace ShellSurvey

/-- A compiled query: from a source and its tree to the captures of the matches, in order. -/
abbrev Query.Finder := List UInt8 → Node → List Captures

/-- A language whose queries can be compiled. -/
structure Language where
  /-- The query that a text is, or why it is none. -/
  compile : String → Except String Query.Finder

namespace Language

/-- The reason for a text that is not understood. -/
def unknownQuery : String := "unknown query"

/-- The language of shell scripts. -/
def standard : Language where
  compile text :=
    match Query.compile? text with
    | some category => .ok (Query.run category)
    | none => .error unknownQuery

end Language

/-! ### Parser packages -/

/-- What a package gives when it is asked for its language. -/
inductive Supply where
  /-- Nothing: the module is missing, or the function in it. -/
  | missing
  /-- Trouble in place of a language. `found` tells whether the module and the function were there
  before it came. -/
  | broken (found : Bool) (trouble : Survey.Trouble)
  /-- The language. -/
  | language (language : Language)

/-- The package that a parser comes from. -/
structure ParserPackage where
  /-- The kind of the package index. -/
  source : String
  /-- The package. -/
  package : String
  /-- The module. -/
  module : String
  /-- The least version. -/
  minVersion : String
  /-- The function of the module that gives the language. -/
  languageFunction : String := "language"
  deriving DecidableEq, Repr

/-- The parser package that is at hand. -/
def ParserPackage.standard : ParserPackage where
  source := "pypi"
  package := "tree-sitter-bash"
  module := "tree_sitter_bash"
  minVersion := "0.23.0"

/-- The names under which every module keeps a text about itself, in place of a function. -/
def ParserPackage.textNames : List String :=
  ["__name__", "__package__", "__file__"]

/-- What a package gives here. -/
def ParserPackage.supply (package : ParserPackage) : Supply :=
  if package.module != ParserPackage.standard.module then .missing
  else if package.languageFunction == ParserPackage.standard.languageFunction then
    .language .standard
  else if ParserPackage.textNames.contains package.languageFunction then
    .broken true (.unforeseen "TypeError" "'str' object is not callable")
  else .missing

/-! ### Definitions -/

/-- The functions that turn captures into records. -/
structure Transforms where
  /-- The parameters that a body implies. -/
  params : Option (List Char → List Param) := none
  /-- The normal form of a body. -/
  body : Option (List Char → List Char) := none
  /-- Whether a function of that name is exported by a script. -/
  exported : Option (List Char → List Char → Bool) := none
  /-- The import of a match. -/
  imported : Option (Captures → Import) := none
  /-- The text of a comment. -/
  comment : Option (List Char → List Char) := none

/-- All five functions. -/
def Transforms.standard : Transforms where
  params := some Param.infer
  body := some Script.normalBody
  exported := some Directive.isExported
  imported := some (fun captures => Import.ofCaptures captures none)
  comment := some Script.commentText

/-- The names of the functions that are there, in order. -/
def Transforms.names (transforms : Transforms) : List String :=
  [("is_exported", transforms.exported.isSome), ("normalize_body", transforms.body.isSome),
    ("parse_doc_comment", transforms.comment.isSome),
    ("parse_import", transforms.imported.isSome),
    ("parse_params", transforms.params.isSome)].filterMap
    (fun entry => if entry.2 then some entry.1 else none)

/-- The functions without the one of that name. -/
def Transforms.without (transforms : Transforms) (name : String) : Transforms :=
  if name == "parse_params" then { transforms with params := none }
  else if name == "normalize_body" then { transforms with body := none }
  else if name == "is_exported" then { transforms with exported := none }
  else if name == "parse_import" then { transforms with imported := none }
  else if name == "parse_doc_comment" then { transforms with comment := none }
  else transforms

/-- The text of the query of each category. -/
abbrev Queries := Query.Category → Option String

/-- The standard query of each category. -/
def Queries.standard : Queries :=
  fun category => some (Query.standardText category)

/-- The queries with another text for one category. -/
def Queries.put (queries : Queries) (category : Query.Category) (text : Option String) : Queries :=
  fun other => if other = category then text else queries other

/-- The categories that have a text, with it, in order. -/
def Queries.items (queries : Queries) : List (Query.Category × String) :=
  Query.Category.all.filterMap (fun category =>
    match queries category with
    | some text => if text.isEmpty then none else some (category, text)
    | none => none)

/-- What a survey needs to know of a language. -/
structure Grammar where
  /-- The identifier. -/
  id : String
  /-- The name. -/
  name : String
  /-- A description. -/
  description : String
  /-- The file name suffixes, dot included. -/
  endings : List String
  /-- The names of files without such a suffix. -/
  wholeNames : List String
  /-- The package of the parser. -/
  parser : ParserPackage
  /-- What the package gives. -/
  supply : Supply := parser.supply
  /-- The queries. -/
  queries : Queries
  /-- The functions on captures. -/
  transforms : Transforms

namespace Grammar

/-- The grammar of shell scripts. -/
def standard : Grammar where
  id := "bash"
  name := "Bash"
  description := "Bash and shell script grammar"
  endings := Grammar.suffixes.map String.ofList
  wholeNames := Grammar.fileNames.map String.ofList
  parser := ParserPackage.standard
  queries := Queries.standard
  transforms := Transforms.standard

/-- The language that the package gives, if it gives one. -/
def language (grammar : Grammar) : Option Language :=
  match grammar.supply with
  | .language language => some language
  | _ => none

/-- The identifiers and their second names in order. -/
def registered : List String :=
  ["bash", "sh", "shell"]

/-- The query of a category, if the grammar has one that is not blank. -/
def queryText? (grammar : Grammar) (category : Query.Category) : Option String :=
  match grammar.queries category with
  | some text => if (Text.trim text.toList).isEmpty then none else some text
  | none => none

end Grammar

end ShellSurvey
