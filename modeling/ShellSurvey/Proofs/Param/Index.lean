import Mathlib.Data.Nat.Digits.Lemmas
import ShellSurvey.Proofs.Param.Signature
import ShellSurvey.Proofs.Text.Numeral

/-!
# The index of a parameter

The index of a parameter is read back from its name, and reading a numeral can fail: the text may
be no numeral, or it may have too many digits. Neither happens to the parameters of a body.

* `Index.read_significant` — the digits of a reference are converted only if the conversion
  succeeds, and then to the index of the reference;
* `index_of_mem_infer` — every parameter of a body has an index.

Both rest on one bound, `Index.lt`: what has few enough digits to be a reference has few enough
to be written and read again.
-/

namespace ShellSurvey.Param

/-- The value of digits is their value in the decimal system. -/
theorem digitsValue_eq (digits : List Char) :
    digitsValue digits = Nat.ofDigitChars 10 digits 0 := by
  rw [digitsValue, Nat.ofDigitChars_eq_foldl]

/-- An index is below the bound that its digits are counted against. -/
theorem Index.lt {digits : List Char} {n : Nat} (h : Index digits n) : n < 10 ^ indexLimit := by
  have hdigit : ∀ d ∈ (digits.dropWhile (· == '0')).reverse.map fun c => c.toNat - '0'.toNat,
      d < 10 := by
    intro d hd
    obtain ⟨c, hc, rfl⟩ := List.mem_map.mp hd
    have hmem : c ∈ digits := List.dropWhile_subset _ (List.mem_reverse.mp hc)
    have hrange := Text.Numeral.toNat_of_isDigit (h.ascii c hmem)
    change c.toNat - 48 < 10
    omega
  calc n = digitsValue (digits.dropWhile (· == '0')) := by
        rw [h.value, digitsValue_dropWhile, digitsValue_eq_ofDigits]
    _ < 10 ^ ((digits.dropWhile (· == '0')).reverse.map fun c => c.toNat - '0'.toNat).length := by
        rw [digitsValue_eq_ofDigits]
        exact Nat.ofDigits_lt_base_pow_length (by decide) hdigit
    _ ≤ 10 ^ indexLimit := by
        refine Nat.pow_le_pow_right (by decide) ?_
        rw [List.length_map, List.length_reverse]
        exact h.short

/-- The digits that count: without leading zeros, and a single zero if nothing is left. -/
def significant (digits : List Char) : List Char :=
  if digits.dropWhile (· == '0') = [] then ['0'] else digits.dropWhile (· == '0')

/-- The digits of an index can be converted, and the index is what they denote. -/
theorem Index.read_significant {digits : List Char} {n : Nat} (h : Index digits n) :
    Text.Numeral.read (significant digits) = .ok (n : Int) := by
  have hvalue : n = digitsValue (digits.dropWhile (· == '0')) := by
    rw [h.value, digitsValue_dropWhile, digitsValue_eq_ofDigits]
  rw [significant]
  split_ifs with hzero
  · rw [hvalue, hzero]
    rfl
  · have hascii : ∀ c ∈ digits.dropWhile (· == '0'), c.isDigit := fun c hc =>
      h.ascii c (List.dropWhile_subset _ hc)
    rw [Text.Numeral.read_of_isDigit hzero hascii h.short, ← digitsValue_eq, ← hvalue]

/-- Indices are limited by the number of digits that are converted. -/
theorem lt_of_mem_scan {body : List Char} {o : Occurrence} {n : Nat} (ho : o ∈ scan body)
    (hn : o.reference.index? = some n) : n < 10 ^ indexLimit := by
  obtain ⟨token, before, after, -, -, -, htoken⟩ := tokenAt_of_mem_scan ho
  generalize o.reference = reference at htoken hn
  cases htoken with
  | bare hindex _ => exact Option.some.inj hn ▸ hindex.lt
  | braced _ hindex => exact Option.some.inj hn ▸ hindex.lt
  | fallback _ hindex _ _ => exact Option.some.inj hn ▸ hindex.lt
  | marker m => cases hn
  | bracedMarker m => cases hn

/-- A parameter that is named after a number has that number as its index. -/
theorem index_eq {p : Param} {i : Nat} (hrest : p.rest = false) (hname : p.name = "$" ++ toString i)
    (hi : i < 10 ^ indexLimit) : p.index = .ok (some (i : Int)) := by
  have hdigits : p.name.toList.drop 1 = Nat.toDigits 10 i := by
    simp [hname]
  have hascii : ∀ c ∈ Nat.toDigits 10 i, c.isDigit := fun c hc =>
    Nat.isDigit_of_mem_toDigits (by decide) (by decide) hc
  have hshort : (Nat.toDigits 10 i).length ≤ indexLimit :=
    (Nat.length_toDigits_le_iff (by decide) (by decide)).mpr hi
  have hread : Text.Numeral.read (Nat.toDigits 10 i) = .ok (i : Int) := by
    rw [Text.Numeral.read_of_isDigit Nat.toDigits_ne_nil hascii hshort,
      Nat.ofDigitChars_ten_toDigits]
  simp only [index, hrest, hdigits, hread]
  rfl

/-- **Every parameter of a body has an index**: the number it is named after, or none if it stands
for all remaining arguments. -/
theorem index_of_mem_infer {body : List Char} {p : Param} (h : p ∈ infer body) :
    ∃ index, p.index = .ok index := by
  have hhighest : highestIndex ((scanOnce body).map (·.reference)) < 10 ^ indexLimit := by
    rw [scanOnce_eq_scan, highestIndex_lt_iff (Nat.pow_pos (by decide))]
    intro r hr n hn
    obtain ⟨o, ho, rfl⟩ := List.mem_map.mp hr
    exact lt_of_mem_scan ho hn
  rw [infer, params_ofReferences] at h
  rcases List.mem_append.mp h with hpos | hrest
  · obtain ⟨i, hi, rfl⟩ := List.mem_map.mp hpos
    have hle := (List.mem_range'_1.mp hi).2
    exact ⟨_, index_eq rfl rfl (by omega)⟩
  · obtain ⟨m, -, rfl⟩ := Option.map_eq_some_iff.mp (Option.mem_toList.mp hrest)
    exact ⟨none, rfl⟩

end ShellSurvey.Param
