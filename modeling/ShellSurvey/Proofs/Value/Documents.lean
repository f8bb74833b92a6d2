import ShellSurvey.Proofs.Value.Proper
import ShellSurvey.Value.Json.Reader
import ShellSurvey.Value.Yaml.Document

/-!
# Documents hold proper data

Whatever is read from a text is proper: a reader of an object settles which fields it has once all
of them are read, and what it reads for a field comes from the same readers. The readers call each
other under a bound, so the induction is on that.
-/

namespace ShellSurvey

/-- Whether all that a reader may give, next to what follows it, has a property. -/
def Yields {α β : Type} (p : α → Prop) (result : Option (α × β)) : Prop :=
  ∀ r ∈ result, p r.1

section Yields

variable {α β γ δ : Type} {p : α → Prop} {q : γ → Prop}

theorem yields_none : Yields p (none : Option (α × β)) :=
  fun _ h => by cases h

theorem yields_some {a : α} {b : β} (h : p a) : Yields p (some (a, b)) := by
  rintro _ ⟨⟩
  exact h

theorem Yields.map {result : Option (α × β)} (h : Yields p result) {f : α × β → γ × δ}
    (hf : ∀ r, p r.1 → q (f r).1) : Yields q (result.map f) := by
  intro r hr
  obtain ⟨s, hs, rfl⟩ := Option.map_eq_some_iff.mp hr
  exact hf s (h s hs)

theorem yields_map {ε : Type} {result : Option ε} {f : ε → γ × δ} (hf : ∀ r, q (f r).1) :
    Yields q (result.map f) := by
  intro r hr
  obtain ⟨s, -, rfl⟩ := Option.map_eq_some_iff.mp hr
  exact hf s

theorem yields_ite {c : Prop} [Decidable c] {first second : Option (α × β)}
    (hfirst : Yields p first) (hsecond : Yields p second) :
    Yields p (if c then first else second) := by
  split_ifs
  · exact hfirst
  · exact hsecond

end Yields

/-- Whether the values of all fields are proper. -/
def Fields.ProperValues (fields : Fields) : Prop :=
  ∀ field ∈ fields, field.2.Proper

namespace Fields.ProperValues

variable {rest : Fields} {value : Value}

theorem nil : ProperValues [] :=
  fun _ h => by cases h

theorem single (name : String) (h : value.Proper) : ProperValues [(name, value)] := by
  intro field hfield
  rwa [List.mem_singleton.mp hfield]

theorem cons (name : String) (h : value.Proper) (hrest : rest.ProperValues) :
    ProperValues ((name, value) :: rest) := by
  intro field hfield
  rcases List.mem_cons.mp hfield with rfl | hfield
  · exact h
  · exact hrest field hfield

/-- An object of proper values is proper once its names are told apart. -/
theorem object_distinct (h : rest.ProperValues) : (Value.object rest.distinct).Proper :=
  Value.proper_object_iff.mpr (proper_distinct h)

end Fields.ProperValues

/-! ### JSON -/

namespace Json

theorem yields_readMagnitude (negative : Bool) (cs : List Char) :
    Yields Value.Proper (readMagnitude negative cs) := by
  rw [readMagnitude]
  split
  · exact yields_none
  · exact yields_ite (yields_some (.leaf rfl)) (yields_some (.leaf rfl))

theorem yields_readScalar (cs : List Char) : Yields Value.Proper (readScalar cs) := by
  have hliterals : ∀ entry ∈ literals, entry.2.fields? = none := by
    simp [literals, Value.fields?]
  unfold readScalar
  split
  · next entry hentry =>
    exact yields_some (.leaf (hliterals entry (List.mem_of_find?_eq_some hentry)))
  · split <;> exact yields_readMagnitude _ _

/-- Values and fields are read as proper ones, at every bound on their depth. -/
theorem yields_read (bound : Nat) :
    (∀ cs, Yields Value.Proper (readValue bound cs)) ∧
      ∀ cs, Yields Fields.ProperValues (readFields bound cs) := by
  induction bound with
  | zero =>
    refine ⟨fun cs => ?_, fun cs => ?_⟩
    · rw [readValue]
      exact yields_none
    · rw [readFields]
      exact yields_none
  | succ bound ih =>
    obtain ⟨ihValue, ihFields⟩ := ih
    refine ⟨fun cs => ?_, fun cs => ?_⟩
    · unfold readValue
      split
      · exact yields_map fun _ => .leaf rfl
      · split
        · exact yields_some (.leaf rfl)
        · exact yields_map fun _ => .leaf rfl
      · split
        · exact yields_some (Value.proper_object_iff.mpr Fields.proper_nil)
        · exact (ihFields _).map fun _ hfields => hfields.object_distinct
      · exact yields_readScalar _
    · unfold readFields
      split
      · split
        · exact yields_none
        · split
          · split
            · exact yields_none
            · next hitem =>
              have hproper := ihValue _ _ hitem
              dsimp only
              split
              · exact yields_some (.single _ hproper)
              · exact (ihFields _).map fun _ hfields => .cons _ hproper hfields
              · exact yields_none
          · exact yields_none
      · exact yields_none

/-- What is read from a JSON text has no name twice. -/
theorem proper_of_parse? {cs : List Char} {value : Value} (h : parse? cs = some value) :
    value.Proper := by
  rw [parse?] at h
  split at h
  · next hread =>
    split_ifs at h
    obtain rfl := Option.some.inj h
    exact (yields_read _).1 _ _ hread
  · cases h

end Json

/-! ### YAML -/

namespace Yaml

/-- A plain scalar is no object. -/
theorem fields?_resolve (cs : List Char) : (resolve cs).fields? = none := by
  rw [resolve]
  split_ifs
  · rfl
  · rfl
  · rfl
  · split
    · rfl
    · split <;> rfl

theorem yields_readInnerScalar (cs : List Char) : Yields Value.Proper (readInnerScalar cs) := by
  rw [readInnerScalar]
  split_ifs
  · exact yields_map fun _ => .leaf rfl
  · exact yields_some (.leaf (fields?_resolve _))
  · exact yields_none

/-- What stands between brackets is read as a proper value, at every bound on its depth. -/
theorem yields_readFlow (bound : Nat) :
    (∀ cs, Yields Value.Proper (readFlow bound cs)) ∧
      (∀ cs, Yields Value.Proper (readFlowValue bound cs)) ∧
      ∀ cs, Yields Fields.ProperValues (readFlowFields bound cs) := by
  induction bound with
  | zero =>
    refine ⟨fun cs => ?_, fun cs => ?_, fun cs => ?_⟩
    · rw [readFlow]
      exact yields_none
    · rw [readFlowValue]
      exact yields_none
    · rw [readFlowFields]
      exact yields_none
  | succ bound ih =>
    obtain ⟨ihFlow, ihValue, ihFields⟩ := ih
    refine ⟨fun cs => ?_, fun cs => ?_, fun cs => ?_⟩
    · unfold readFlow
      split
      · exact yields_map fun _ => .leaf rfl
      · exact (ihFields _).map fun _ hfields => hfields.object_distinct
      · exact yields_readInnerScalar _
    · unfold readFlowValue
      split
      · exact yields_some (.leaf rfl)
      · exact yields_some (.leaf rfl)
      · exact yields_some (.leaf rfl)
      · exact ihFlow _
    · unfold readFlowFields
      split
      · exact yields_some .nil
      · split
        · exact yields_none
        · split
          · exact yields_none
          · extract_lets value
            have hvalue : Yields Value.Proper value := by
              unfold value
              split
              · exact ihValue _
              · exact yields_some (.leaf rfl)
            clear_value value
            rcases value with _ | ⟨item, rest⟩
            · exact yields_none
            · have hitem : item.Proper := hvalue _ rfl
              dsimp only
              split
              · exact yields_some (.single _ hitem)
              · exact (ihFields _).map fun _ hfields => .cons _ hitem hfields
              · exact yields_none

theorem yields_readInline (indent : Nat) (cs : List Char) :
    Yields Value.Proper (readInline indent cs) := by
  unfold readInline
  split
  · exact yields_none
  · split_ifs
    · exact (yields_readFlow _).1 _
    · exact yields_map fun _ => .leaf rfl
    · exact yields_some (.leaf (fields?_resolve _))
    · exact yields_none

/-- What stands on the rest of a line is proper, whatever comes on the next one. -/
theorem yields_line (indent : Nat) (cs : List Char) :
    Yields Value.Proper (match readInline indent cs with
      | none => none
      | some (value, rest) => (nextLine? rest).map (fun next => (value, next))) := by
  split
  · exact yields_none
  · next hread => exact yields_map fun _ => yields_readInline _ _ _ hread

/-- Blocks and their pairs are read as proper values, at every bound on their depth. -/
theorem yields_readBlock (bound : Nat) :
    (∀ indent place, Yields Value.Proper (readBlock bound indent place)) ∧
      ∀ column place, Yields Fields.ProperValues (readPairs bound column place) := by
  induction bound with
  | zero =>
    refine ⟨fun indent place => ?_, fun column place => ?_⟩
    · rw [readBlock]
      exact yields_none
    · rw [readPairs]
      exact yields_none
  | succ bound ih =>
    obtain ⟨ihBlock, ihPairs⟩ := ih
    refine ⟨fun indent place => ?_, fun column place => ?_⟩
    · unfold readBlock
      split_ifs
      · exact yields_map fun _ => .leaf rfl
      · exact (ihPairs _ _).map fun _ hfields => hfields.object_distinct
      · exact yields_line indent place.rest
    · unfold readPairs
      split
      · exact yields_none
      · next key after _ =>
        extract_lets next value
        have hvalue : Yields Value.Proper value := by
          unfold value
          split_ifs
          · exact yields_some (.leaf rfl)
          · exact ihBlock _ _
          · exact yields_map fun _ => .leaf rfl
          · exact yields_some (.leaf rfl)
          · exact yields_line _ _
        clear_value value
        rcases value with _ | ⟨item, next⟩
        · exact yields_none
        · have hitem : item.Proper := hvalue _ rfl
          dsimp only
          split_ifs
          · exact yields_some (.single _ hitem)
          · exact yields_none
          · exact (ihPairs _ _).map fun _ hfields => .cons _ hitem hfields

theorem yields_readContent (size : Nat) (start : Place) :
    Yields Value.Proper (readContent size start) := by
  rw [readContent]
  split_ifs
  · exact yields_some (.leaf rfl)
  · exact (yields_readBlock _).1 _ _

theorem yields_readMarked (size : Nat) (cs : List Char) :
    Yields Value.Proper (readMarked size cs) := by
  unfold readMarked
  split_ifs
  · exact yields_readContent _ _
  · exact yields_line _ _

/-- What is read from a settings file has no name twice. -/
theorem proper_of_parse? {text : List Char} {value : Value} (h : parse? text = some value) :
    value.Proper := by
  unfold parse? at h
  extract_lets cs at h
  split_ifs at h
  split at h
  · cases h
  · next directed body _ =>
    extract_lets start content at h
    have hcontent : Yields Value.Proper content := by
      unfold content
      split_ifs
      · exact yields_readMarked _ _
      · exact yields_none
      · exact yields_readContent _ _
    clear_value content
    rcases content with _ | ⟨read, next⟩
    · cases h
    · dsimp only at h
      split_ifs at h
      obtain rfl := Option.some.inj h
      exact hcontent _ rfl

end Yaml

end ShellSurvey
