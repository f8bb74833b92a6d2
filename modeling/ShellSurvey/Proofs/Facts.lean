import ShellSurvey.Facts
import ShellSurvey.Proofs.Value.Json

/-!
# Facts are read back

Facts as data say all that the facts say: `Facts.ofValue?` reads them back, whatever they are
(`Facts.faithful`). The data is exact, so facts are read back from JSON as well. Each part of the
facts has a reader of its own, and `Faithful` is what the readers of the parts share.
-/

namespace ShellSurvey

/-! ### Readers -/

namespace Value

/-- The text that a value is. -/
def text? : Value → Option String
  | .text s => some s
  | _ => none

/-- The truth value that a value is. -/
def bool? : Value → Option Bool
  | .bool b => some b
  | _ => none

/-- The natural number that a value is. -/
def nat? : Value → Option Nat
  | .int (.ofNat n) => some n
  | _ => none

/-- The text that a value is, or none for the absent value. -/
def optText? : Value → Option (Option String)
  | .text s => some (some s)
  | .null => some none
  | _ => none

/-- The items of a list, each read by the reader. -/
def list? {α : Type} (read? : Value → Option α) : Value → Option (List α)
  | .list items => items.mapM read?
  | _ => none

/-- The field of an object, read by the reader. -/
def at? {α : Type} (value : Value) (name : String) (read? : Value → Option α) : Option α :=
  (value.field? name).bind read?

end Value

open Value (text? bool? nat? optText? list?)

/-- What is written is read back, and is exact. -/
structure Faithful {α : Type} (write : α → Value) (read? : Value → Option α) : Prop where
  read : ∀ a, read? (write a) = some a
  exact : ∀ a, (write a).Exact

theorem exact_optText (s : Option String) : (Value.optText s).Exact := by
  cases s with
  | none => exact .null
  | some s => exact .text s

theorem optText?_optText (s : Option String) : optText? (.optText s) = some s := by
  cases s <;> rfl

/-- A list is read back item by item. -/
theorem Faithful.list {α : Type} {write : α → Value} {read? : Value → Option α}
    (h : Faithful write read?) : Faithful (fun as => .list (as.map write)) (list? read?) where
  read as := by
    rw [list?]
    induction as with
    | nil => rfl
    | cons a rest ih => simp [h.read a, ih]
  exact as := by
    refine .list fun item hitem => ?_
    obtain ⟨a, -, rfl⟩ := List.mem_map.mp hitem
    exact h.exact a

/-- An object is exact if its names are distinct and its values are exact. -/
theorem exact_object {fields : Fields} (hnodup : fields.names.Nodup)
    (h : List.Forall Value.Exact (fields.map (·.2))) : (Value.object fields).Exact := by
  refine .object hnodup fun field hfield => ?_
  exact List.forall_iff_forall_mem.mp h field.2 (List.mem_map_of_mem hfield)

/-! ### The parts of facts -/

/-- The location that a value is. -/
def Location.ofValue? (value : Value) : Option Location := do
  let file ← value.at? "file" text?
  let line ← value.at? "line" nat?
  let column ← value.at? "column" nat?
  let endLine ← value.at? "end_line" nat?
  let endColumn ← value.at? "end_column" nat?
  return { file, line, column, endLine, endColumn }

theorem Location.faithful : Faithful Location.toValue Location.ofValue? where
  read _ := rfl
  exact _ := exact_object (by simp [Fields.names]) ⟨.text _, .int _, .int _, .int _, .int _⟩

/-- The parameter that a value is. -/
def Param.ofValue? (value : Value) : Option Param := do
  let name ← value.at? "name" text?
  let optional ← value.at? "optional" bool?
  let rest ← value.at? "rest" bool?
  let fallback ← value.at? "default_value" optText?
  return { name, optional, rest, fallback }

/-- Parameters are read back; their index is not written. -/
theorem Param.faithful : Faithful (fun p => .object p.fields) Param.ofValue? where
  read p := by
    have hread : Param.ofValue? (.object p.fields) =
        (optText? (.optText p.fallback)).bind fun fallback => some { p with fallback } := rfl
    rw [hread, optText?_optText, Option.bind_some]
  exact p :=
    exact_object (by simp [Param.fields, Fields.names])
      ⟨.text _, .bool _, .bool _, exact_optText _, .null⟩

/-- The import that a value is. -/
def Import.ofValue? (value : Value) : Option Import := do
  let name ← value.at? "name" text?
  let fromPath ← value.at? "from_path" text?
  let location ← value.at? "location" Location.ofValue?
  let isDynamic ← value.at? "is_dynamic" bool?
  let raw ← value.at? "raw" text?
  return { name, fromPath, location, isDynamic, raw }

theorem Import.faithful : Faithful (fun i => .object i.fields) Import.ofValue? where
  read _ := rfl
  exact i :=
    exact_object (by simp [Import.fields, Fields.names])
      ⟨.text _, .text _, Location.faithful.exact _, .bool _, .bool _, .bool _, .text _⟩

/-- The kind of that name. -/
def ExportKind.ofName? (name : String) : Option ExportKind :=
  [ExportKind.function, .variable].find? (·.name == name)

/-- The kinds of exports have names of their own. -/
theorem ExportKind.ofName?_name (kind : ExportKind) : ofName? kind.name = some kind := by
  cases kind <;> rfl

/-- The export that a value is. -/
def Export.ofValue? (value : Value) : Option Export := do
  let name ← value.at? "name" text?
  let kind ← (← value.at? "kind" text?) |> ExportKind.ofName?
  let location ← value.at? "location" Location.ofValue?
  return { name, kind, location }

theorem Export.faithful : Faithful Export.toValue Export.ofValue? where
  read e := by
    have hread : Export.ofValue? e.toValue =
        (ExportKind.ofName? e.kind.name).bind fun kind => some { e with kind } := rfl
    rw [hread, ExportKind.ofName?_name, Option.bind_some]
  exact _ :=
    exact_object (by simp [Fields.names]) ⟨.text _, .text _, Location.faithful.exact _⟩

/-- The string literal that a value is. -/
def StringLiteral.ofValue? (value : Value) : Option StringLiteral := do
  let text ← value.at? "value" text?
  let kind ← value.at? "kind" text?
  let location ← value.at? "location" Location.ofValue?
  return { value := text, kind, location }

theorem StringLiteral.faithful : Faithful StringLiteral.toValue StringLiteral.ofValue? where
  read _ := rfl
  exact _ :=
    exact_object (by simp [Fields.names]) ⟨.text _, .text _, Location.faithful.exact _⟩

/-- The comment that a value is. -/
def DocComment.ofValue? (value : Value) : Option DocComment := do
  let text ← value.at? "text" text?
  let location ← value.at? "location" Location.ofValue?
  return { text, location }

theorem DocComment.faithful : Faithful DocComment.toValue DocComment.ofValue? where
  read _ := rfl
  exact _ := exact_object (by simp [Fields.names]) ⟨.text _, Location.faithful.exact _⟩

/-- The function that a value is. -/
def Function.ofValue? (value : Value) : Option Function := do
  let name ← value.at? "name" text?
  let params ← value.at? "params" (list? Param.ofValue?)
  let body ← value.at? "body" text?
  let isExported ← value.at? "is_exported" bool?
  let location ← value.at? "location" Location.ofValue?
  let doc ← value.at? "doc" optText?
  return { name, params, body, isExported, location, doc }

/-- Functions are read back with their parameters. -/
theorem Function.faithful :
    Faithful (Function.toValueWith fun p => .object p.fields) Function.ofValue? where
  read f := by
    have hread : Function.ofValue? (f.toValueWith fun p => .object p.fields) =
        (list? Param.ofValue? (.list (f.params.map fun p => .object p.fields))).bind fun params =>
          (optText? (.optText f.doc)).bind fun doc => some { f with params, doc } := rfl
    rw [hread, Param.faithful.list.read, optText?_optText, Option.bind_some, Option.bind_some]
  exact f :=
    exact_object (by simp [Fields.names])
      ⟨.text _, Param.faithful.list.exact _, .text _, .bool _, Location.faithful.exact _,
        exact_optText _⟩

/-! ### Facts -/

/-- The facts that a value is. -/
def Facts.ofValue? (value : Value) : Option Facts := do
  let file ← value.at? "file" text?
  let grammar ← value.at? "grammar_id" text?
  let functions ← value.at? "functions" (list? Function.ofValue?)
  let imports ← value.at? "imports" (list? Import.ofValue?)
  let exports ← value.at? "exports" (list? Export.ofValue?)
  let strings ← value.at? "strings" (list? StringLiteral.ofValue?)
  let docComments ← value.at? "doc_comments" (list? DocComment.ofValue?)
  let errorCount ← value.at? "error_count" nat?
  return { file, grammar, functions, imports, exports, strings, docComments, errorCount }

/-- **Facts are read back from their data.** -/
theorem Facts.faithful : Faithful Facts.toValue Facts.ofValue? where
  read facts := by
    have hread : Facts.ofValue? facts.toValue =
        (list? Function.ofValue? (.list (facts.functions.map
          (Function.toValueWith fun p => .object p.fields)))).bind fun functions =>
        (list? Import.ofValue? (.list (facts.imports.map fun i => .object i.fields))).bind
          fun imports =>
        (list? Export.ofValue? (.list (facts.exports.map Export.toValue))).bind fun exports =>
        (list? StringLiteral.ofValue? (.list (facts.strings.map StringLiteral.toValue))).bind
          fun strings =>
        (list? DocComment.ofValue? (.list (facts.docComments.map DocComment.toValue))).bind
          fun docComments =>
        some { facts with functions, imports, exports, strings, docComments } := rfl
    rw [hread, Function.faithful.list.read, Import.faithful.list.read, Export.faithful.list.read,
      StringLiteral.faithful.list.read, DocComment.faithful.list.read]
    rfl
  exact facts :=
    exact_object (by simp [Facts.fieldsWith, Fields.names])
      ⟨.text _, .text _, Function.faithful.list.exact _, Import.faithful.list.exact _,
        Export.faithful.list.exact _, StringLiteral.faithful.list.exact _,
        DocComment.faithful.list.exact _, .int _⟩

end ShellSurvey
