import ShellSurvey.Text.Numeral

/-!
# Runs of ASCII digits

What ASCII digits denote. A run of them that is not too long is read as a number
(`read_of_isDigit`), and a number is written as the run that denotes it, without a zero in front
(`value_ofNat`, `head?_ofNat_ne`).
-/

namespace ShellSurvey.Text.Numeral

variable {c : Char} {digits : List Char}

theorem toNat_of_isDigit (h : c.isDigit) : 48 ≤ c.toNat ∧ c.toNat ≤ 57 := by
  simpa [Char.isDigit, UInt32.le_iff_toNat_le] using h

theorem ne_of_isDigit {other : Char} (h : c.isDigit) (hother : other.isDigit = false) :
    c ≠ other := by
  rintro rfl
  rw [h] at hother
  cases hother

theorem isBlank_of_isDigit (h : c.isDigit) : isBlank c = false := by
  obtain ⟨hlow, hhigh⟩ := toNat_of_isDigit h
  simp only [isBlank, Bool.or_eq_false_iff, Bool.and_eq_false_iff, decide_eq_false_iff_not,
    beq_eq_false_iff_ne]
  omega

/-- An ordinary digit has its usual value among the digits of all scripts. -/
theorem anyDigit?_of_isDigit (h : c.isDigit) : anyDigit? c = some (c.toNat - '0'.toNat) := by
  obtain ⟨hlow, hhigh⟩ := toNat_of_isDigit h
  have hfirst : zeros = 0x30 :: zeros.tail := rfl
  rw [anyDigit?, hfirst, List.find?_cons_of_pos]
  · rfl
  · simp only [Bool.and_eq_true, decide_eq_true_eq]
    omega

theorem trim_of_isDigit (h : ∀ c ∈ digits, c.isDigit) : trim digits = digits := by
  have hkeep : ∀ cs : List Char, (∀ c ∈ cs, c.isDigit) → cs.dropWhile isBlank = cs := by
    intro cs hcs
    cases cs with
    | nil => rfl
    | cons c rest =>
      exact List.dropWhile_cons_of_neg (by simp [isBlank_of_isDigit (hcs c List.mem_cons_self)])
  have hback : ∀ c ∈ digits.reverse, c.isDigit := fun c hc => h c (List.mem_reverse.mp hc)
  rw [trim, trimFront, trimBack, hkeep digits h, hkeep _ hback, List.reverse_reverse]

theorem sign_of_isDigit (h : ∀ c ∈ digits, c.isDigit) : sign digits = (1, digits) := by
  cases digits with
  | nil => rfl
  | cons c rest =>
    have hc := h c List.mem_cons_self
    rw [sign]
    · intro _ heq
      cases heq
      exact absurd hc (by decide)
    · intro _ heq
      cases heq
      exact absurd hc (by decide)

/-- Digits without separators are read as one run. -/
theorem digitRun_of_isDigit (h : ∀ c ∈ digits, c.isDigit) (afterDigit : Bool) :
    digitRun anyDigit? afterDigit digits = (digits.map fun c => c.toNat - '0'.toNat, []) := by
  induction digits generalizing afterDigit with
  | nil => rfl
  | cons c rest ih =>
    have hrest := ih (fun d hd => h d (List.mem_cons_of_mem c hd)) true
    rw [digitRun, anyDigit?_of_isDigit (h c List.mem_cons_self)]
    simp only [hrest, List.map_cons]

/-- What digits denote is what their characters denote. -/
theorem value_map (digits : List Char) :
    value (digits.map fun c => c.toNat - '0'.toNat) = Nat.ofDigitChars 10 digits 0 := by
  rw [value, valueFrom, List.foldl_map, Nat.ofDigitChars_eq_foldl]

/-- A run of ASCII digits that is not too long is read as the number it denotes. -/
theorem read_of_isDigit (hne : digits ≠ []) (h : ∀ c ∈ digits, c.isDigit)
    (hshort : digits.length ≤ digitLimit) :
    read digits = .ok (Nat.ofDigitChars 10 digits 0 : Int) := by
  have hlong : ¬digitLimit < digits.length := Nat.not_lt.mpr hshort
  simp only [read, trim_of_isDigit h, sign_of_isDigit h, digitRun_of_isDigit h, List.length_map,
    hlong, if_false, value_map]
  simp [hne]

/-! ### Numbers as they are written -/

theorem isDigit_of_mem_ofNat {n : Nat} (h : c ∈ ofNat n) : c.isDigit :=
  Nat.isDigit_of_mem_toDigits (by decide) (by decide) h

/-- A numeral begins with a digit. -/
theorem exists_ofNat_eq_cons (n : Nat) : ∃ lead more, ofNat n = lead :: more ∧ lead.isDigit := by
  cases hdigits : ofNat n with
  | nil => exact absurd hdigits Nat.toDigits_ne_nil
  | cons lead more =>
    exact ⟨lead, more, rfl, isDigit_of_mem_ofNat (hdigits ▸ List.mem_cons_self)⟩

/-- A number is written without a zero in front. -/
theorem head?_ofNat_ne {n : Nat} (h : 0 < n) : (ofNat n).head? ≠ some '0' := by
  induction n using Nat.strongRecOn with
  | ind n ih =>
    rw [ofNat, Nat.toDigits_eq_if (by decide)]
    split
    · next hsmall =>
      have hdigit : ∀ d < 10, 0 < d → d.digitChar ≠ '0' := by decide
      simpa using hdigit n hsmall h
    · have hfront := ih (n / 10) (by omega) (by omega)
      rw [List.head?_append]
      intro hzero
      rcases Option.or_eq_some_iff.mp hzero with hzero | ⟨hnone, -⟩
      · exact hfront hzero
      · exact Nat.toDigits_ne_nil (List.head?_eq_none_iff.mp hnone)

theorem asciiDigit?_of_isDigit (h : c.isDigit) : asciiDigit? c = some (c.toNat - '0'.toNat) := by
  have hrange : '0' ≤ c ∧ c ≤ '9' := by simpa [Char.isDigit, Char.le_def] using h
  rw [asciiDigit?, if_pos hrange]
  rfl

/-- ASCII digits by their value. -/
theorem filterMap_asciiDigit? (h : ∀ c ∈ digits, c.isDigit) :
    digits.filterMap asciiDigit? = digits.map fun c => c.toNat - '0'.toNat := by
  induction digits with
  | nil => rfl
  | cons c rest ih =>
    obtain ⟨hc, hrest⟩ := List.forall_mem_cons.mp h
    rw [List.filterMap_cons_some (asciiDigit?_of_isDigit hc), List.map_cons, ih hrest]

/-- What a number is written as denotes it. -/
theorem value_ofNat (n : Nat) : value ((ofNat n).filterMap asciiDigit?) = n := by
  rw [filterMap_asciiDigit? fun c => isDigit_of_mem_ofNat, value_map, ofNat,
    Nat.ofDigitChars_ten_toDigits]

end ShellSurvey.Text.Numeral
