/-!
# Query texts

The five queries that a script is read with, one for each category of facts. A query is written
as patterns over the syntax tree, with `@` labels for what is captured; labels that start with
an underscore serve the tests only.
-/

namespace ShellSurvey.Query

/-- What a query looks for. -/
inductive Category where
  /-- Function definitions. -/
  | functions
  /-- String literals. -/
  | strings
  /-- Statements that read another file. -/
  | imports
  /-- Names handed to child processes. -/
  | exports
  /-- Comments. -/
  | docComments
  deriving DecidableEq, Repr

namespace Category

/-- All categories, in the order in which queries are listed. -/
def all : List Category :=
  [.functions, .strings, .imports, .exports, .docComments]

/-- The name of a category. -/
def name : Category → String
  | .functions => "functions"
  | .strings => "strings"
  | .imports => "imports"
  | .exports => "exports"
  | .docComments => "doc_comments"

/-- The category of a name. -/
def ofName? (name : String) : Option Category :=
  all.find? (fun category => category.name == name)

end Category

/-- A text that starts on a fresh line and ends every line. -/
def ofLines (lines : List String) : String :=
  "\n" ++ String.join (lines.map (· ++ "\n"))

/-- The query for function definitions. -/
def functionsText : String :=
  ofLines
    ["(function_definition",
      "  name: (word) @function.name",
      "  body: (compound_statement) @function.params @function.body) @function"]

/-- The query for string literals. -/
def stringsText : String :=
  ofLines
    ["; Single-quoted strings (raw, no expansion)",
      "(raw_string) @string.value",
      "",
      "; Double-quoted strings (with expansion)",
      "(string) @string.value",
      "",
      "; ANSI-C quoted strings ($'...')",
      "(ansi_c_string) @string.value",
      "",
      "; Here-document bodies",
      "(heredoc_body) @string.value",
      "",
      "; Here-strings with a bare word (<<< word)",
      "(herestring_redirect",
      "  (word) @string.value)"]

/-- The query for statements that read another file. -/
def importsText : String :=
  ofLines
    ["(command",
      "  name: (command_name",
      "    (word) @_cmd)",
      "  argument: (word) @import.from",
      "  (#match? @_cmd \"^(source|\\\\.)$\")) @import",
      "",
      "(command",
      "  name: (command_name",
      "    (word) @_cmd)",
      "  argument: (string) @import.from",
      "  (#match? @_cmd \"^(source|\\\\.)$\")) @import",
      "",
      "(command",
      "  name: (command_name",
      "    (word) @_cmd)",
      "  argument: (raw_string) @import.from",
      "  (#match? @_cmd \"^(source|\\\\.)$\")) @import",
      "",
      "; Paths assembled at runtime: $DIR/x.sh, ${LIB}, $(cmd)",
      "(command",
      "  name: (command_name",
      "    (word) @_cmd)",
      "  argument: [",
      "    (concatenation)",
      "    (simple_expansion)",
      "    (expansion)",
      "    (command_substitution)",
      "  ] @import.from",
      "  (#match? @_cmd \"^(source|\\\\.)$\")) @import"]

/-- The query for exported names. -/
def exportsText : String :=
  ofLines
    ["(declaration_command",
      "  \"export\"",
      "  (variable_assignment",
      "    name: (variable_name) @export.name)) @export",
      "",
      "(declaration_command",
      "  \"export\"",
      "  (variable_name) @export.name) @export",
      "",
      "(declaration_command",
      "  \"export\"",
      "  (word) @_flag",
      "  (variable_name) @export.name",
      "  (#eq? @_flag \"-f\")) @export",
      "",
      "(declaration_command",
      "  \"declare\"",
      "  (word) @_flag",
      "  (variable_assignment",
      "    name: (variable_name) @export.name)",
      "  (#match? @_flag \"^-.*x\")) @export",
      "",
      "(declaration_command",
      "  \"declare\"",
      "  (word) @_flag",
      "  (variable_name) @export.name",
      "  (#match? @_flag \"^-.*x\")) @export",
      "",
      "(declaration_command",
      "  \"typeset\"",
      "  (word) @_flag",
      "  (variable_assignment",
      "    name: (variable_name) @export.name)",
      "  (#match? @_flag \"^-.*x\")) @export",
      "",
      "(declaration_command",
      "  \"typeset\"",
      "  (word) @_flag",
      "  (variable_name) @export.name",
      "  (#match? @_flag \"^-.*x\")) @export"]

/-- The query for comments. -/
def docCommentsText : String :=
  ofLines
    ["(comment) @doc.content"]

/-- The query of a category. -/
def standardText : Category → String
  | .functions => functionsText
  | .strings => stringsText
  | .imports => importsText
  | .exports => exportsText
  | .docComments => docCommentsText

/-- The category whose query a text is; any other text does not compile. -/
def compile? (text : String) : Option Category :=
  Category.all.find? (fun category => standardText category == text)

end ShellSurvey.Query
