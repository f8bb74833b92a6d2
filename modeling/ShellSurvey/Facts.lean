import ShellSurvey.Import
import ShellSurvey.Param.Basic
import ShellSurvey.Value.Basic

/-!
# Facts

What a survey tells about one script, and the same as data.
-/

namespace ShellSurvey

/-- A function definition. -/
structure Function where
  /-- The name. -/
  name : String
  /-- The parameters that its body implies. -/
  params : List Param
  /-- The body, braces included. -/
  body : String
  /-- Whether it is handed to child processes. -/
  isExported : Bool
  /-- Where it stands. -/
  location : Location
  /-- The comment block right above it. -/
  doc : Option String := none
  deriving DecidableEq, Repr

/-- What an exported name stands for. -/
inductive ExportKind where
  /-- A function. -/
  | function
  /-- A variable. -/
  | variable
  deriving DecidableEq, Repr

/-- The name of a kind. -/
def ExportKind.name : ExportKind → String
  | .function => "function"
  | .variable => "variable"

/-- A name handed to child processes. -/
structure Export where
  /-- The name. -/
  name : String
  /-- What it stands for. -/
  kind : ExportKind
  /-- Where the statement stands. -/
  location : Location
  deriving DecidableEq, Repr

/-- A string literal. -/
structure StringLiteral where
  /-- The text, quotes included. -/
  value : String
  /-- The kind of its node. -/
  kind : String
  /-- Where it stands. -/
  location : Location
  deriving DecidableEq, Repr

/-- A comment. -/
structure DocComment where
  /-- The text without its marker. -/
  text : String
  /-- Where it stands. -/
  location : Location
  deriving DecidableEq, Repr

/-- Everything that is told about one script. -/
structure Facts where
  /-- The file. -/
  file : String
  /-- The grammar it was read with. -/
  grammar : String
  /-- The functions in order of their bodies. -/
  functions : List Function := []
  /-- The imports in order of their statements. -/
  imports : List Import := []
  /-- The exports in order of their statements. -/
  exports : List Export := []
  /-- The string literals in order. -/
  strings : List StringLiteral := []
  /-- The comments in order. -/
  docComments : List DocComment := []
  /-- How many nodes of the tree are faulty. -/
  errorCount : Nat := 0
  deriving DecidableEq, Repr

/-- The first function of that name. -/
def Facts.function? (facts : Facts) (name : String) : Option Function :=
  facts.functions.find? (fun f => f.name == name)

/-! ### Facts as data -/

/-- A location as data. -/
def Location.toValue (l : Location) : Value :=
  .object
    [("file", .text l.file), ("line", .nat l.line), ("column", .nat l.column),
      ("end_line", .nat l.endLine), ("end_column", .nat l.endColumn)]

/-- The fields of a parameter. A shell has no parameter types. -/
def Param.fields (p : Param) : Fields :=
  [("name", .text p.name), ("optional", .bool p.optional), ("rest", .bool p.rest),
    ("default_value", .optText p.fallback), ("type", .null)]

/-- The fields of an import. Every import brings in all definitions and none is of types. -/
def Import.fields (i : Import) : Fields :=
  [("name", .text i.name), ("from_path", .text i.fromPath), ("location", i.location.toValue),
    ("is_type_only", .bool false), ("is_namespace", .bool true),
    ("is_dynamic", .bool i.isDynamic), ("raw", .text i.raw)]

/-- An export as data. -/
def Export.toValue (e : Export) : Value :=
  .object
    [("name", .text e.name), ("kind", .text e.kind.name), ("location", e.location.toValue)]

/-- A string literal as data. -/
def StringLiteral.toValue (s : StringLiteral) : Value :=
  .object [("value", .text s.value), ("kind", .text s.kind), ("location", s.location.toValue)]

/-- A comment as data. -/
def DocComment.toValue (c : DocComment) : Value :=
  .object [("text", .text c.text), ("location", c.location.toValue)]

/-- A function as data, its parameters written by `param`. -/
def Function.toValueWith (param : Param → Value) (f : Function) : Value :=
  .object
    [("name", .text f.name), ("params", .list (f.params.map param)), ("body", .text f.body),
      ("is_exported", .bool f.isExported), ("location", f.location.toValue),
      ("doc", .optText f.doc)]

/-- The fields of the facts, parameters and imports written by the given functions. -/
def Facts.fieldsWith (param : Param → Value) (imported : Import → Value) (facts : Facts) :
    Fields :=
  [("file", .text facts.file), ("grammar_id", .text facts.grammar),
    ("functions", .list (facts.functions.map (Function.toValueWith param))),
    ("imports", .list (facts.imports.map imported)),
    ("exports", .list (facts.exports.map Export.toValue)),
    ("strings", .list (facts.strings.map StringLiteral.toValue)),
    ("doc_comments", .list (facts.docComments.map DocComment.toValue)),
    ("error_count", .nat facts.errorCount)]

/-- The facts as data. -/
def Facts.toValue (facts : Facts) : Value :=
  .object (facts.fieldsWith (fun p => .object p.fields) (fun i => .object i.fields))

end ShellSurvey
