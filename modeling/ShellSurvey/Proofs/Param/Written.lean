import ShellSurvey.Proofs.Param.Compose
import ShellSurvey.Proofs.Param.Index

/-!
# Written signatures

A signature is written by one reference for each parameter: a bare or a braced one for a parameter
without a default text, one of the two operators for a parameter with one, and a marker for all
remaining arguments (`spellings`). From the references, in any order and with single spaces between
them, the signature is read back (`infer_written`).

A space is a separator and a token is closed, so the tokens are found one by one
(`references_joinWith`), whatever their default texts look like. As every index has one reference,
the summary of the references does not depend on their order: it is read off by membership
(`paramsOf_declared`).
-/

namespace ShellSurvey.Param

/-! ### References as they are written -/

/-- The ways to write a reference. -/
def spellings : Reference → List (List Char)
  | .positional n none =>
    ['$' :: Text.Numeral.ofNat n, '$' :: '\x7b' :: (Text.Numeral.ofNat n ++ ['\x7d'])]
  | .positional n (some text) =>
    operators.map fun operator =>
      '$' :: '\x7b' :: (Text.Numeral.ofNat n ++ operator ++ text ++ ['\x7d'])
  | .rest m => [['$', m.char], ['$', '\x7b', m.char, '\x7d']]

/-- Numbers are written as indices if they are not too long. -/
theorem index_ofNat {n : Nat} (h : n < 10 ^ indexLimit) : Index (Text.Numeral.ofNat n) n where
  nonempty := Nat.toDigits_ne_nil
  ascii _ hc := Nat.isDigit_of_mem_toDigits (by decide) (by decide) hc
  short := by
    have hlength : (Nat.toDigits 10 n).length ≤ indexLimit :=
      (Nat.length_toDigits_le_iff (by decide) (by decide)).mpr h
    exact (List.length_dropWhile_le _ _).trans hlength
  value := by
    rw [← digitsValue_eq_ofDigits, digitsValue_eq, Text.Numeral.ofNat,
      Nat.ofDigitChars_ten_toDigits]

/-- A reference that can be written: its index is not too long, and nothing in its default text
closes it. -/
def Reference.Writable : Reference → Prop
  | .positional n none => n < 10 ^ indexLimit
  | .positional n (some text) => n < 10 ^ indexLimit ∧ DefaultText text
  | .rest _ => True

/-- Every spelling of a reference is one, unless a digit follows. -/
theorem token_of_mem_spellings {token rest : List Char} {reference : Reference}
    (h : token ∈ spellings reference) (hw : reference.Writable)
    (hrest : ∀ c ∈ rest.head?, c.isDigit = false) : Token token rest reference := by
  cases reference with
  | rest m =>
    simp only [spellings, List.mem_cons, List.not_mem_nil, or_false] at h
    rcases h with rfl | rfl
    · exact .marker m rest
    · exact .bracedMarker m rest
  | positional n fallback =>
    cases fallback with
    | none =>
      simp only [spellings, List.mem_cons, List.not_mem_nil, or_false] at h
      rcases h with rfl | rfl
      · exact .bare (index_ofNat hw) hrest
      · exact .braced rest (index_ofNat hw)
    | some text =>
      obtain ⟨operator, ho, rfl⟩ := List.mem_map.mp h
      exact .fallback rest (index_ofNat hw.1) ho hw.2

/-- A reference alone is found alone. -/
theorem scan_token {token : List Char} {reference : Reference} (h : Token token [] reference) :
    scan token = [⟨0, token.length, reference⟩] := by
  have hleftmost : Leftmost token [⟨0, token.length, reference⟩] := by
    refine ⟨fun o ho => ?_, List.pairwise_singleton _ _, fun o ho => ?_⟩
    · obtain rfl := List.mem_singleton.mp ho
      exact ⟨[], token, [], by simp, rfl, rfl, h⟩
    · have hlt := ho.start_lt_stop
      have hle := ho.stop_le
      refine ⟨_, List.mem_singleton_self _, Nat.zero_le _, ?_⟩
      simp only [Occurrence.stop] at hlt hle ⊢
      omega
  rw [← scanOnce_eq_scan, ← leftmost_iff.mp hleftmost]

/-- A reference leaves no brace open. -/
theorem closes_token {token : List Char} {reference : Reference} (h : Token token [] reference) :
    Closes token := by
  intro place n length hreached hopen
  -- the token is the whole text, so a scan searches at its start or nowhere
  rw [scanOnce_eq_scan, scan_token h] at hreached
  have hout := hreached _ (List.mem_singleton_self _)
  have hplace := lt_length_of_opening? hopen
  simp only [Occurrence.stop] at hout
  obtain rfl : place = 0 := by omega
  rw [List.drop_zero] at hopen
  have hread := h.recognise?
  rw [List.append_nil, recognise?_of_default hopen] at hread
  obtain ⟨fallback, hclose, -⟩ := Option.map_eq_some_iff.mp hread
  rw [Nat.zero_add, hclose]
  rfl

/-- References that are written with single spaces between them are found again. -/
theorem references_joinWith {tokens : List (List Char)} {references : List Reference}
    (h : List.Forall₂ (fun token r => token ∈ spellings r) tokens references)
    (hw : ∀ r ∈ references, r.Writable) :
    (scan (Text.joinWith ' ' tokens)).map (·.reference) = references := by
  have hsep : isSeparator ' ' = true := by decide
  induction h with
  | nil => rfl
  | @cons token r tokens references htoken hrest ih =>
    have hr : Token token [] r :=
      token_of_mem_spellings htoken (hw r List.mem_cons_self) (by simp)
    have ih := ih fun s hs => hw s (List.mem_cons_of_mem r hs)
    cases hrest with
    | nil =>
      rw [Text.joinWith, scan_token hr]
      rfl
    | cons _ _ =>
      rw [Text.joinWith, references_append hsep (closes_token hr), ih, scan_token hr]
      · rfl
      · exact List.cons_ne_nil _ _

/-! ### Signatures in any order -/

/-- One reference for each parameter of a signature, where `defaults` are the default texts of the
positional ones. -/
def declared (defaults : List (Option (List Char))) (rest : Option RestMarker) : List Reference :=
  defaults.mapIdx (fun i text => .positional (i + 1) text) ++ (rest.map .rest).toList

/-- The parameters of that signature. -/
def declaredParams (defaults : List (Option (List Char))) (rest : Option RestMarker) :
    List Param :=
  defaults.mapIdx (fun i text =>
    { name := "$" ++ toString (i + 1), optional := text.isSome, rest := false,
      fallback := text.map String.ofList }) ++
  (rest.map fun m =>
    { name := String.ofList ['$', m.char], optional := true, rest := true,
      fallback := none }).toList

variable {defaults : List (Option (List Char))} {rest : Option RestMarker}
  {references : List Reference}

/-- The declared references are numbered as their defaults are listed. -/
theorem positional_mem_declared_iff {i : Nat} {text : Option (List Char)} :
    Reference.positional i text ∈ declared defaults rest ↔
      0 < i ∧ defaults[i - 1]? = some text := by
  have hrest : Reference.positional i text ∉ (rest.map Reference.rest).toList := by
    cases rest <;> simp
  rw [declared, List.mem_append, or_iff_left hrest, List.mem_mapIdx]
  constructor
  · rintro ⟨k, hk, heq⟩
    cases heq
    exact ⟨Nat.succ_pos k, by simp [hk]⟩
  · rintro ⟨hpos, hget⟩
    obtain ⟨hlt, rfl⟩ := List.getElem?_eq_some_iff.mp hget
    exact ⟨i - 1, hlt, by rw [Nat.sub_add_cancel hpos]⟩

theorem rest_mem_declared_iff {m : RestMarker} :
    Reference.rest m ∈ declared defaults rest ↔ rest = some m := by
  have hpos : Reference.rest m ∉
      defaults.mapIdx (fun i text => Reference.positional (i + 1) text) := by
    simp [List.mem_mapIdx]
  rw [declared, List.mem_append, or_iff_right hpos]
  cases rest <;> simp [eq_comm]

/-- Where all members that give something give the same, the order of a list does not matter. -/
theorem findSome?_eq_of_agree {α β : Type} {f : α → Option β} {xs : List α} {expected : Option β}
    (hagree : ∀ a ∈ xs, ∀ y, f a = some y → expected = some y)
    (hgiven : ∀ y, expected = some y → ∃ a ∈ xs, f a = some y) : xs.findSome? f = expected := by
  cases hfind : xs.findSome? f with
  | some y =>
    obtain ⟨a, ha, hy⟩ := List.exists_of_findSome?_eq_some hfind
    exact (hagree a ha y hy).symm
  | none =>
    refine (Option.eq_none_iff_forall_ne_some.mpr fun y hy => ?_).symm
    obtain ⟨a, ha, hay⟩ := hgiven y hy
    rw [List.findSome?_eq_none_iff.mp hfind a ha] at hay
    cases hay

theorem marker?_eq_some_iff {r : Reference} {m : RestMarker} :
    r.marker? = some m ↔ r = .rest m := by
  cases r <;> simp [Reference.marker?]

/-- The highest index of declared references is the number of their defaults. -/
theorem highestIndex_declared (h : references.Perm (declared defaults rest)) :
    highestIndex references = defaults.length := by
  refine Nat.le_antisymm (highestIndex_le_iff.mpr fun r hr n hn => ?_) ?_
  · cases r with
    | rest m => cases hn
    | positional i text =>
      obtain rfl : i = n := Option.some_inj.mp hn
      obtain ⟨hpos, hget⟩ := positional_mem_declared_iff.mp (h.mem_iff.mp hr)
      have hlt := (List.getElem?_eq_some_iff.mp hget).1
      omega
  · rcases Nat.eq_zero_or_pos defaults.length with hzero | hpos
    · exact hzero ▸ Nat.zero_le _
    · have hlast : .positional defaults.length defaults[defaults.length - 1] ∈ references :=
        h.mem_iff.mpr (positional_mem_declared_iff.mpr ⟨hpos, by simp⟩)
      exact highestIndex_le_iff.mp (Nat.le_refl _) _ hlast _ rfl

/-- Each declared reference gives the default of its index. -/
theorem firstDefault?_declared (h : references.Perm (declared defaults rest))
    (hdefaults : ∀ text, some text ∈ defaults → text ≠ []) {i : Nat} (hi : i < defaults.length) :
    firstDefault? references (i + 1) = defaults[i] := by
  refine findSome?_eq_of_agree (fun r hr text htext => ?_) (fun text htext => ?_)
  · obtain ⟨-, rfl⟩ := defaultFor?_eq_some_iff.mp htext
    obtain ⟨-, hget⟩ := positional_mem_declared_iff.mp (h.mem_iff.mp hr)
    exact (List.getElem?_eq_some_iff.mp hget).2
  · have hr : .positional (i + 1) (some text) ∈ references :=
      h.mem_iff.mpr (positional_mem_declared_iff.mpr ⟨Nat.succ_pos i, by simp [hi, htext]⟩)
    have hne : text ≠ [] := hdefaults text (htext ▸ List.getElem_mem hi)
    exact ⟨_, hr, defaultFor?_eq_some_iff.mpr ⟨hne, rfl⟩⟩

/-- The declared marker is the only one. -/
theorem firstMarker?_declared (h : references.Perm (declared defaults rest)) :
    firstMarker? references = rest := by
  refine findSome?_eq_of_agree (fun r hr m hm => ?_) (fun m hm => ?_)
  · obtain rfl := marker?_eq_some_iff.mp hm
    exact rest_mem_declared_iff.mp (h.mem_iff.mp hr)
  · exact ⟨.rest m, h.mem_iff.mpr (rest_mem_declared_iff.mpr hm), rfl⟩

/-- Declared references give the declared parameters, in whatever order they are used. -/
theorem paramsOf_declared (h : references.Perm (declared defaults rest))
    (hdefaults : ∀ text, some text ∈ defaults → text ≠ []) :
    paramsOf references = declaredParams defaults rest := by
  rw [paramsOf_eq, firstMarker?_declared h, highestIndex_declared h, declaredParams]
  congr 1
  refine List.ext_getElem (by simp) fun i hi _ => ?_
  have hlt : i < defaults.length := by simpa using hi
  simp only [List.getElem_map, List.getElem_range', List.getElem_mapIdx, positionalOf, Nat.one_mul,
    Nat.add_comm 1, firstDefault?_declared h hdefaults hlt]

/-- **A signature can be read back from any way to write it**: one reference for each parameter, in
whatever order and spelling, with single spaces between them. -/
theorem infer_written {tokens : List (List Char)} (hcount : defaults.length < 10 ^ indexLimit)
    (hdefaults : ∀ text, some text ∈ defaults → text ≠ [] ∧ DefaultText text)
    (horder : references.Perm (declared defaults rest))
    (htokens : List.Forall₂ (fun token r => token ∈ spellings r) tokens references) :
    infer (Text.joinWith ' ' tokens) = declaredParams defaults rest := by
  have hwritable : ∀ r ∈ references, r.Writable := by
    intro r hr
    have hmem := horder.mem_iff.mp hr
    cases r with
    | rest m => trivial
    | positional i text =>
      obtain ⟨hpos, hget⟩ := positional_mem_declared_iff.mp hmem
      obtain ⟨hlt, heq⟩ := List.getElem?_eq_some_iff.mp hget
      have hi : i < 10 ^ indexLimit := by omega
      cases text with
      | none => exact hi
      | some text => exact ⟨hi, (hdefaults text (heq ▸ List.getElem_mem hlt)).2⟩
  rw [infer, params_ofReferences, scanOnce_eq_scan, references_joinWith htokens hwritable,
    paramsOf_declared horder fun text htext => (hdefaults text htext).1]

instance (text : List Char) : Decidable (DefaultText text) :=
  decidable_of_iff (closingBrace? (text ++ ['\x7d']) = some text)
    ⟨fun h => (defaultText_of_closingBrace? h).1, fun h => closingBrace?_append h []⟩

/-- All remaining arguments first, then two parameters from the last to the first, with a default
text that has a reference, an opening and a hidden brace in it. -/
theorem infer_written_reversed :
    infer (Text.joinWith ' '
        ["$\x7b*\x7d".toList, "$\x7b2-$1 $\x7b3-\\\x7d\x7d".toList, "$1".toList]) =
      declaredParams [none, some "$1 $\x7b3-\\\x7d".toList] (some .joined) := by
  have horder :
      [.rest .joined, .positional 2 (some "$1 $\x7b3-\\\x7d".toList), .positional 1 none].Perm
        (declared [none, some "$1 $\x7b3-\\\x7d".toList] (some .joined)) := by
    decide
  refine infer_written ?_ ?_ horder ?_
  · exact Nat.lt_of_lt_of_le (by decide : 2 < 10 ^ 1) (Nat.pow_le_pow_right (by decide) (by decide))
  · intro text htext
    obtain rfl : text = "$1 $\x7b3-\\\x7d".toList := by simpa using htext
    decide
  · exact .cons (by decide) (.cons (by decide) (.cons (by decide) .nil))

end ShellSurvey.Param
