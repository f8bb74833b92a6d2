import ShellSurvey.Value.Basic

/-!
# Overlaying objects

`overlay base top` puts the fields of `top` over those of `base`. Where both hold an object
under one name the two are overlaid in turn; anywhere else the field of `top` stands. The
fields of `base` keep their places and new ones follow in the order of `top`.

`Fields.reach?` is the value at a path of names, descending through objects only.
-/

namespace ShellSurvey

mutual

/-- What stands where `base` stood after `top` is put over it. -/
def Value.overlay (base top : Value) : Value :=
  match top with
  | .object above =>
    match base with
    | .object below => .object (Fields.overlay below above)
    | _ => .object above
  | other => other
termination_by structural top

/-- The fields of `top` put over those of `base`. -/
def Fields.overlay (base top : Fields) : Fields :=
  match top with
  | [] => base
  | field :: rest => Fields.overlay (Fields.overlayOne base field) rest
termination_by structural top

/-- One field put over those of `base`. -/
def Fields.overlayOne (base : Fields) (field : String × Value) : Fields :=
  match field with
  | (name, value) =>
    base.put name
      (match base.get? name with
      | some old => old.overlay value
      | none => value)
termination_by structural field

end

/-- The value reached from the fields along the names, through objects only. -/
def Fields.reach? (fields : Fields) : List String → Option Value
  | [] => none
  | [name] => fields.get? name
  | name :: rest =>
    match fields.get? name with
    | some (.object inner) => Fields.reach? inner rest
    | _ => none

end ShellSurvey
