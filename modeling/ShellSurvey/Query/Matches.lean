import ShellSurvey.Query.Category
import ShellSurvey.Tree.Place
import ShellSurvey.Capture

/-!
# Query matches

What the five queries find in a tree. A match ends at one node, the one that its pattern names
last, and every match is found at the place of that node: `matchesAt` lists the matches that end
at a place, and `run` collects them in the order of the places. Siblings in a pattern need not be
neighbours, so each combination gives a match of its own.
-/

namespace ShellSurvey.Query

/-- The capture of a node. -/
def capture (source : List UInt8) (siblings : Option (List String)) (node : Node) : Capture where
  site := { kind := node.kind, span := node.span, siblings := siblings }
  text := String.ofList (node.text source)

/-- The kinds of the children of a node. -/
def childKinds (node : Node) : Option (List String) :=
  some (node.children.map (·.kind))

/-- The function definitions whose body is at the place. -/
def functionsAt (source : List UInt8) (place : Place) : List Captures :=
  match place.frames with
  | frame :: above =>
    if place.node.isNamed "compound_statement" && place.node.hasRole "body" &&
        frame.parent.isNamed "function_definition" then
      let definition :=
        capture source (above.head?.bind (fun upper => childKinds upper.parent)) frame.parent
      let body := capture source (childKinds frame.parent) place.node
      (frame.earlier.filter (fun node => node.isNamed "word" && node.hasRole "name")).map
        (fun name =>
          [("function", definition),
            ("function.name", capture source (childKinds frame.parent) name),
            ("function.params", body), ("function.body", body)])
    else []
  | [] => []

/-- The kinds of nodes that are string literals by themselves. -/
def stringKinds : List String :=
  ["raw_string", "string", "ansi_c_string", "heredoc_body"]

/-- Whether the node at the place is a string literal. -/
def isString (place : Place) : Bool :=
  (place.node.named && stringKinds.contains place.node.kind) ||
    (place.node.isNamed "word" &&
      match place.frame? with
      | some frame => frame.parent.isNamed "herestring_redirect"
      | none => false)

/-- The string literal at the place. -/
def stringsAt (source : List UInt8) (place : Place) : List Captures :=
  if isString place then [[("string.value", capture source place.siblingKinds place.node)]]
  else []

/-- The kinds of arguments that may name a file. -/
def argumentKinds : List String :=
  ["word", "string", "raw_string", "concatenation", "simple_expansion", "expansion",
    "command_substitution"]

/-- The words that read another file. -/
def sourceWords : List String :=
  ["source", "."]

/-- The words of a command name that read another file. -/
def sourceWordsOf (source : List UInt8) (name : Node) : List Node :=
  name.children.filter (fun node =>
    node.isNamed "word" && sourceWords.contains (String.ofList (node.text source)))

/-- The statements that read another file and have an argument at the place. -/
def importsAt (source : List UInt8) (place : Place) : List Captures :=
  match place.frames with
  | frame :: above =>
    if place.node.named && argumentKinds.contains place.node.kind &&
        place.node.hasRole "argument" && frame.parent.isNamed "command" then
      let statement :=
        capture source (above.head?.bind (fun upper => childKinds upper.parent)) frame.parent
      (frame.earlier.filter (fun node =>
        node.isNamed "command_name" && node.hasRole "name")).flatMap (fun name =>
          (sourceWordsOf source name).map (fun word =>
            [("import", statement), ("_cmd", capture source (childKinds name) word),
              ("import.from", capture source (childKinds frame.parent) place.node)]))
    else []
  | [] => []

/-! ### Exported names -/

/-- Whether a flag asks for functions. -/
def isFunctionFlag (text : List Char) : Bool :=
  text == ['-', 'f']

/-- Whether a flag of a declaration asks for an export: a dash, and an `x` later on its line. -/
def isExportFlag : List Char → Bool
  | '-' :: rest => (rest.takeWhile (· != '\n')).contains 'x'
  | _ => false

/-- Whether a node is the keyword of that spelling. -/
def isKeyword (spelling : String) (node : Node) : Bool :=
  !node.named && node.kind == spelling

/-- A statement with a name in it, as the export patterns see it. -/
structure Declared where
  /-- The statement. -/
  statement : Node
  /-- The statement's siblings. -/
  siblings : Option (List String)
  /-- The children of the statement before the name or before its assignment. -/
  earlier : List Node
  /-- Whether the name stands alone, and is not the target of an assignment. -/
  plain : Bool

/-- The statement of a plain name at the place. -/
def plainDeclared? (place : Place) : Option Declared :=
  match place.frames with
  | frame :: above =>
    if place.node.isNamed "variable_name" && frame.parent.isNamed "declaration_command" then
      some ⟨frame.parent, above.head?.bind (fun upper => childKinds upper.parent),
        frame.earlier, true⟩
    else none
  | [] => none

/-- The statement of an assigned name at the place. -/
def assignedDeclared? (place : Place) : Option Declared :=
  match place.frames with
  | frame :: upper :: above =>
    if place.node.isNamed "variable_name" && place.node.hasRole "name" &&
        frame.parent.isNamed "variable_assignment" &&
        upper.parent.isNamed "declaration_command" then
      some ⟨upper.parent, above.head?.bind (fun top => childKinds top.parent),
        upper.earlier, false⟩
    else none
  | _ => none

/-- The children behind each child that satisfies the test. -/
def behind (test : Node → Bool) : List Node → List (List Node)
  | [] => []
  | node :: rest => if test node then rest :: behind test rest else behind test rest

/-- The flags among nodes whose text satisfies the test. -/
def flags (source : List UInt8) (test : List Char → Bool) (nodes : List Node) : List Node :=
  nodes.filter (fun node => node.isNamed "word" && test (node.text source))

/-- The matches of a statement with the given name. -/
def Declared.matches (source : List UInt8) (declared : Declared) (name : Capture) :
    List Captures :=
  let statement := ("export", capture source declared.siblings declared.statement)
  let flagged (flag : Node) : Captures :=
    [statement, ("_flag", capture source (childKinds declared.statement) flag),
      ("export.name", name)]
  let exports := behind (isKeyword "export") declared.earlier
  let bare := exports.map (fun _ => [statement, ("export.name", name)])
  let functions :=
    if declared.plain then
      exports.flatMap (fun nodes => (flags source isFunctionFlag nodes).map flagged)
    else []
  let declarations (keyword : String) : List Captures :=
    (behind (isKeyword keyword) declared.earlier).flatMap (fun nodes =>
      (flags source isExportFlag nodes).map flagged)
  bare ++ functions ++ declarations "declare" ++ declarations "typeset"

/-- The exports whose name is at the place. -/
def exportsAt (source : List UInt8) (place : Place) : List Captures :=
  let name := capture source place.siblingKinds place.node
  ((assignedDeclared? place).toList ++ (plainDeclared? place).toList).flatMap
    (fun declared => declared.matches source name)

/-- The comment at the place. -/
def docCommentsAt (source : List UInt8) (place : Place) : List Captures :=
  if place.node.isNamed "comment" then
    [[("doc.content", capture source place.siblingKinds place.node)]]
  else []

/-! ### Whole trees -/

/-- The matches of a category that end at a place. -/
def matchesAt (category : Category) (source : List UInt8) (place : Place) : List Captures :=
  match category with
  | .functions => functionsAt source place
  | .strings => stringsAt source place
  | .imports => importsAt source place
  | .exports => exportsAt source place
  | .docComments => docCommentsAt source place

/-- The matches of a category in a tree. -/
def run (category : Category) (source : List UInt8) (root : Node) : List Captures :=
  (Place.all root).flatMap (matchesAt category source)

end ShellSurvey.Query
