import Mathlib.Data.List.TakeWhile
import Mathlib.Data.Nat.Digits.Defs
import ShellSurvey.Param.Scan

/-!
# Tokens

The shapes of a reference, written down as a grammar: `Token token rest reference` says that
`token`, standing right before `rest`, is a way to write `reference`. Only a bare run of digits
looks at what follows it, since it must be as long as it can be.

* `DefaultText` — the texts that a closing brace may end: no closing brace stands bare in them,
  and no backslash at their end hides the one that follows;
* `Index` — a run of digits that is not too long, and the number it denotes;
* `recognise?_eq_some_iff` — the reader at the front of a text finds exactly the tokens;
* `TokenAt` — a token at a place of a text.

The search for a closing brace gets its own characterization, and the one fact about searches
that start at different places: behind a character that is no backslash, a search fails if an
earlier one does (`closingBrace?_eq_none_of_append`).
-/

namespace ShellSurvey.Param

/-! ### Default texts -/

/-- A text in which no closing brace stands bare. A backslash hides the character after it,
whatever that is, and so does not stand at the end. -/
inductive DefaultText : List Char → Prop
  | nil : DefaultText []
  | hidden (c : Char) {text : List Char} : DefaultText text → DefaultText ('\\' :: c :: text)
  | plain {c : Char} {text : List Char} :
      c ≠ '\\' → c ≠ '\x7d' → DefaultText text → DefaultText (c :: text)

/-- Texts are read by pairs where a backslash hides a character, and one by one elsewhere. -/
@[elab_as_elim]
theorem escape_induction {motive : List Char → Prop} (nil : motive []) (slash : motive ['\\'])
    (hidden : ∀ c text, motive text → motive ('\\' :: c :: text))
    (plain : ∀ c text, c ≠ '\\' → motive text → motive (c :: text)) (text : List Char) :
    motive text := by
  match text with
  | [] => exact nil
  | [c] =>
    by_cases hc : c = '\\'
    · exact hc ▸ slash
    · exact plain c [] hc nil
  | c :: d :: rest =>
    by_cases hc : c = '\\'
    · exact hc ▸ hidden d rest (escape_induction nil slash hidden plain rest)
    · exact plain c (d :: rest) hc (escape_induction nil slash hidden plain (d :: rest))

theorem closingBrace?_cons {c : Char} (hc : c ≠ '\\') (after : List Char) :
    closingBrace? (c :: after) =
      if c = '\x7d' then some [] else (closingBrace? after).map (c :: ·) := by
  rw [closingBrace?]
  · rintro rfl
    exact absurd rfl hc
  · rintro d rest rfl
    exact absurd rfl hc

/-- A default text is what stands before the first bare closing brace. -/
theorem closingBrace?_append {text : List Char} (h : DefaultText text) (rest : List Char) :
    closingBrace? (text ++ '\x7d' :: rest) = some text := by
  induction h with
  | nil => rfl
  | hidden c _ ih => simp [closingBrace?, ih]
  | plain hslash hbrace _ ih => simp [closingBrace?_cons hslash, hbrace, ih]

/-- What a search finds is a default text with a closing brace behind it. -/
theorem defaultText_of_closingBrace? {text before : List Char}
    (h : closingBrace? text = some before) :
    DefaultText before ∧ ∃ rest, text = before ++ '\x7d' :: rest := by
  induction text using escape_induction generalizing before with
  | nil => simp [closingBrace?] at h
  | slash => simp [closingBrace?] at h
  | hidden c text ih =>
    rw [closingBrace?] at h
    obtain ⟨found, hfound, rfl⟩ := Option.map_eq_some_iff.mp h
    obtain ⟨hdefault, rest, rfl⟩ := ih hfound
    exact ⟨.hidden c hdefault, rest, rfl⟩
  | plain c text hc ih =>
    rw [closingBrace?_cons hc] at h
    split_ifs at h with hbrace
    · obtain rfl := Option.some_inj.mp h
      exact ⟨.nil, text, by rw [hbrace, List.nil_append]⟩
    · obtain ⟨found, hfound, rfl⟩ := Option.map_eq_some_iff.mp h
      obtain ⟨hdefault, rest, rfl⟩ := ih hfound
      exact ⟨.plain hc hbrace hdefault, rest, rfl⟩

/-- A search that starts right behind a character other than a backslash fails if one that
starts before that character does: the earlier search passes through the later one's start,
since nothing hides the character there. -/
theorem closingBrace?_eq_none_of_append {before after : List Char} {c : Char} (hc : c ≠ '\\')
    (h : closingBrace? (before ++ c :: after) = none) : closingBrace? after = none := by
  induction before using escape_induction with
  | nil =>
    rw [List.nil_append, closingBrace?_cons hc] at h
    split_ifs at h
    exact Option.map_eq_none_iff.mp h
  | slash => exact Option.map_eq_none_iff.mp h
  | hidden d before ih =>
    rw [List.cons_append, List.cons_append, closingBrace?] at h
    exact ih (Option.map_eq_none_iff.mp h)
  | plain d before hd ih =>
    rw [List.cons_append, closingBrace?_cons hd] at h
    split_ifs at h
    exact ih (Option.map_eq_none_iff.mp h)

/-! ### Indices -/

/-- The number that a run of ASCII digits denotes, if it is not too long once its leading zeros
are left aside. -/
structure Index (digits : List Char) (n : Nat) : Prop where
  nonempty : digits ≠ []
  ascii : ∀ c ∈ digits, c.isDigit
  short : (digits.dropWhile (· == '0')).length ≤ indexLimit
  value : n = Nat.ofDigits 10 (digits.reverse.map fun c => c.toNat - '0'.toNat)

/-- Zeros in front do not change the value. -/
theorem digitsValue_dropWhile (digits : List Char) :
    digitsValue (digits.dropWhile (· == '0')) = digitsValue digits := by
  induction digits with
  | nil => rfl
  | cons c rest ih =>
    by_cases hc : c = '0'
    · subst hc
      simpa [digitsValue] using ih
    · simp [hc]

theorem digitsValue_eq_ofDigits (digits : List Char) :
    digitsValue digits = Nat.ofDigits 10 (digits.reverse.map fun c => c.toNat - '0'.toNat) := by
  rw [Nat.ofDigits_eq_foldr, List.foldr_map, List.foldr_reverse, digitsValue]
  simp only [Nat.cast_id, Nat.add_comm]

/-- Digits are an index unless there are too many of them behind the zeros. -/
theorem index?_eq_some_iff {digits : List Char} {n : Nat} :
    index? digits = some n ↔ (digits.dropWhile (· == '0')).length ≤ indexLimit ∧
      n = Nat.ofDigits 10 (digits.reverse.map fun c => c.toNat - '0'.toNat) := by
  rw [← digitsValue_eq_ofDigits, ← digitsValue_dropWhile, index?]
  split_ifs with h
  · simp only [false_iff]
    exact fun hshort => absurd hshort.1 (Nat.not_le.mpr h)
  · rw [Option.some_inj]
    exact ⟨fun hn => ⟨Nat.not_lt.mp h, hn.symm⟩, fun hn => hn.2.symm⟩

/-- An index is read as its value. -/
theorem Index.index? {digits : List Char} {n : Nat} (h : Index digits n) :
    Param.index? digits = some n :=
  index?_eq_some_iff.mpr ⟨h.short, h.value⟩

/-- The run of digits at the front of a text, if its index can be read. -/
theorem index_of_takeWhile {text : List Char} {n : Nat}
    (hne : (text.takeWhile Char.isDigit).isEmpty = false)
    (h : Param.index? (text.takeWhile Char.isDigit) = some n) :
    Index (text.takeWhile Char.isDigit) n where
  nonempty := List.isEmpty_eq_false_iff.mp hne
  ascii _ hc := List.mem_takeWhile_imp hc
  short := (index?_eq_some_iff.mp h).1
  value := (index?_eq_some_iff.mp h).2

/-! ### The grammar -/

/-- The two ways to introduce a default text. -/
def operators : List (List Char) := [[':', '-'], ['-']]

/-- A reference written as `token`, right before `rest`. -/
inductive Token : List Char → List Char → Reference → Prop
  /-- `$` and the longest run of digits. -/
  | bare {digits rest : List Char} {n : Nat} :
      Index digits n → (∀ c ∈ rest.head?, c.isDigit = false) →
      Token ('$' :: digits) rest (.positional n none)
  /-- `$@` or `$*`. -/
  | marker (m : RestMarker) (rest : List Char) : Token ['$', m.char] rest (.rest m)
  /-- Digits in braces. -/
  | braced {digits : List Char} {n : Nat} (rest : List Char) :
      Index digits n →
      Token ('$' :: '\x7b' :: (digits ++ ['\x7d'])) rest (.positional n none)
  /-- Digits and a default text in braces. -/
  | fallback {digits operator text : List Char} {n : Nat} (rest : List Char) :
      Index digits n → operator ∈ operators → DefaultText text →
      Token ('$' :: '\x7b' :: (digits ++ operator ++ text ++ ['\x7d'])) rest
        (.positional n (some text))
  /-- A marker in braces. -/
  | bracedMarker (m : RestMarker) (rest : List Char) :
      Token ['$', '\x7b', m.char, '\x7d'] rest (.rest m)

theorem Token.length_pos {token rest : List Char} {reference : Reference}
    (h : Token token rest reference) : 0 < token.length := by
  cases h <;> simp

@[simp] theorem marker?_char (m : RestMarker) : marker? m.char = some m := by
  cases m <;> rfl

theorem marker?_eq_some {c : Char} {m : RestMarker} (h : marker? c = some m) : c = m.char := by
  rw [marker?] at h
  split_ifs at h with h₁ h₂
  · rw [h₁, ← Option.some_inj.mp h]; rfl
  · rw [h₂, ← Option.some_inj.mp h]; rfl

theorem marker?_of_isDigit {c : Char} (h : c.isDigit) : marker? c = none := by
  rw [marker?, if_neg, if_neg]
  · rintro rfl
    exact absurd h (by decide)
  · rintro rfl
    exact absurd h (by decide)

@[simp] theorem isDigit_char (m : RestMarker) : m.char.isDigit = false := by
  cases m <;> rfl

/-- Digits in front of anything else are the longest run of digits. -/
theorem takeWhile_digits {digits rest : List Char} (h : ∀ c ∈ digits, c.isDigit)
    (hrest : ∀ c ∈ rest.head?, c.isDigit = false) :
    (digits ++ rest).takeWhile Char.isDigit = digits ∧
      (digits ++ rest).dropWhile Char.isDigit = rest := by
  rw [List.takeWhile_append_of_pos h, List.dropWhile_append_of_pos h]
  cases rest with
  | nil => simp
  | cons c rest =>
    have hc : c.isDigit = false := hrest c rfl
    simp [hc]

/-! ### The reader finds the tokens -/

/-- The openings behind `$` and an opening brace. -/
inductive BracedOpening : List Char → Opening → Prop
  | marker (m : RestMarker) (rest : List Char) :
      BracedOpening (m.char :: '\x7d' :: rest) (.whole (.rest m) 4)
  | whole {digits : List Char} {n : Nat} (h : Index digits n) (rest : List Char) :
      BracedOpening (digits ++ '\x7d' :: rest) (.whole (.positional n none) (digits.length + 3))
  | default {digits operator : List Char} {n : Nat} (h : Index digits n)
      (ho : operator ∈ operators) (rest : List Char) :
      BracedOpening (digits ++ (operator ++ rest))
        (.default n (digits.length + operator.length + 2))

/-- What is read behind a brace begins a braced reference. -/
theorem bracedOpening_of_braced? {text : List Char} {opening : Opening}
    (h : braced? text = some opening) : BracedOpening text opening := by
  rw [braced?.eq_def] at h
  split at h
  · cases h
  case h_2 c after =>
    split at h
    case h_1 m hm =>
      split_ifs at h with hbrace
      obtain rfl := marker?_eq_some hm
      obtain ⟨rest, rfl⟩ := List.head?_eq_some_iff.mp hbrace
      obtain rfl := Option.some_inj.mp h
      exact .marker m rest
    case h_2 hm =>
      have hindex : ∀ n, index? ((c :: after).takeWhile Char.isDigit) = some n →
          ((c :: after).takeWhile Char.isDigit).isEmpty = false →
          Index ((c :: after).takeWhile Char.isDigit) n :=
        fun n hn hne => index_of_takeWhile hne hn
      rw [← List.takeWhile_append_dropWhile (p := Char.isDigit) (l := c :: after)]
      generalize (c :: after).takeWhile Char.isDigit = digits at h hindex ⊢
      generalize (c :: after).dropWhile Char.isDigit = behind at h ⊢
      simp only at h
      split_ifs at h with hempty
      replace hindex := fun n hn => hindex n hn (by simpa using hempty)
      split at h
      case h_1 n rest hn =>
        obtain rfl := Option.some_inj.mp h
        exact .whole (hindex n hn) rest
      case h_2 n rest hn =>
        obtain rfl := Option.some_inj.mp h
        have ho : [':', '-'] ∈ operators := by decide
        exact .default (hindex n hn) ho rest
      case h_3 n rest hn =>
        obtain rfl := Option.some_inj.mp h
        have ho : ['-'] ∈ operators := by decide
        exact .default (hindex n hn) ho rest
      · cases h

/-- Behind digits, the opening is read off what follows them. -/
theorem braced?_digits {digits rest : List Char} {n : Nat} (h : Index digits n) :
    (∀ c ∈ rest.head?, c.isDigit = false) → braced? (digits ++ rest) =
      match rest with
      | '\x7d' :: _ => some (.whole (.positional n none) (digits.length + 3))
      | ':' :: '-' :: _ => some (.default n (digits.length + 4))
      | '-' :: _ => some (.default n (digits.length + 3))
      | _ => none := by
  intro hrest
  obtain ⟨htake, hdrop⟩ := takeWhile_digits h.ascii hrest
  obtain ⟨c, more, rfl⟩ := List.exists_cons_of_ne_nil h.nonempty
  have hc : c.isDigit := h.ascii c List.mem_cons_self
  rw [List.cons_append, braced?, marker?_of_isDigit hc]
  simp only [← List.cons_append, htake, hdrop, h.index?, List.isEmpty_cons, Bool.false_eq_true,
    if_false]
  split <;> simp_all

/-- The beginning of a braced reference is read as such. -/
theorem BracedOpening.braced? {text : List Char} {opening : Opening}
    (h : BracedOpening text opening) : Param.braced? text = some opening := by
  cases h with
  | marker m rest => simp [Param.braced?]
  | whole h rest =>
    rw [braced?_digits h (by simp)]
    rfl
  | default h ho rest =>
    rw [operators, List.mem_cons, List.mem_singleton] at ho
    rcases ho with rfl | rfl
    · rw [braced?_digits h (by simp)]
      rfl
    · rw [braced?_digits h (by simp)]
      rfl

/-- The opening of a text that starts with `$` and digits. -/
theorem opening?_digits {digits rest : List Char} (hne : digits ≠ [])
    (h : ∀ c ∈ digits, c.isDigit) (hrest : ∀ c ∈ rest.head?, c.isDigit = false) :
    opening? ('$' :: (digits ++ rest)) =
      (index? digits).map fun n => .whole (.positional n none) (digits.length + 1) := by
  obtain ⟨htake, -⟩ := takeWhile_digits h hrest
  obtain ⟨c, more, rfl⟩ := List.exists_cons_of_ne_nil hne
  have hc : c.isDigit := h c List.mem_cons_self
  rw [List.cons_append, opening?, if_pos hc, ← List.cons_append, htake]

theorem opening?_marker (m : RestMarker) (rest : List Char) :
    opening? ('$' :: m.char :: rest) = some (.whole (.rest m) 2) := by
  simp [opening?]

theorem opening?_brace (text : List Char) : opening? ('$' :: '\x7b' :: text) = braced? text := rfl

/-- Only `$` opens anything, and what follows it decides how. -/
theorem opening?_cases {text : List Char} {opening : Opening} (h : opening? text = some opening) :
    (∃ digits rest n, Index digits n ∧ (∀ c ∈ rest.head?, c.isDigit = false) ∧
      text = '$' :: (digits ++ rest) ∧
      opening = .whole (.positional n none) (digits.length + 1)) ∨
    (∃ m rest, text = '$' :: RestMarker.char m :: rest ∧ opening = .whole (.rest m) 2) ∨
    ∃ rest, text = '$' :: '\x7b' :: rest ∧ BracedOpening rest opening := by
  rw [opening?.eq_def] at h
  split at h
  case h_1 c after =>
    by_cases hdigit : c.isDigit
    · rw [if_pos hdigit] at h
      obtain ⟨n, hn, rfl⟩ := Option.map_eq_some_iff.mp h
      refine .inl ⟨(c :: after).takeWhile Char.isDigit, (c :: after).dropWhile Char.isDigit, n,
        index_of_takeWhile (by simp [hdigit]) hn, fun d hd => ?_, ?_, rfl⟩
      · have hnot := List.head?_dropWhile_not Char.isDigit (c :: after)
        rwa [Option.mem_def.mp hd] at hnot
      · rw [List.takeWhile_append_dropWhile]
    · rw [if_neg hdigit] at h
      split at h
      case h_1 m hm =>
        obtain rfl := marker?_eq_some hm
        exact .inr (.inl ⟨m, after, rfl, (Option.some_inj.mp h).symm⟩)
      case h_2 =>
        split_ifs at h with hbrace
        exact .inr (.inr ⟨after, by rw [hbrace], bracedOpening_of_braced? h⟩)
  · cases h

/-- The operator of an opening ends in a dash, right before the default text. -/
theorem dash_of_opening?_default {text : List Char} {n length : Nat}
    (h : opening? text = some (.default n length)) :
    ∃ before after, text = before ++ '-' :: after ∧ length = before.length + 1 := by
  obtain ⟨digits, rest, m, -, -, -, hopen⟩ | ⟨m, rest, -, hopen⟩ | ⟨rest, rfl, hbraced⟩ :=
    opening?_cases h
  · cases hopen
  · cases hopen
  · cases hbraced with
    | @default digits operator n h ho rest =>
      rw [operators, List.mem_cons, List.mem_singleton] at ho
      rcases ho with rfl | rfl
      · exact ⟨'$' :: '\x7b' :: (digits ++ [':']), rest, by simp, by simp⟩
      · exact ⟨'$' :: '\x7b' :: digits, rest, by simp, by simp⟩

theorem recognise?_of_whole {text : List Char} {reference : Reference} {length : Nat}
    (h : opening? text = some (.whole reference length)) :
    recognise? text = some (reference, length) := by
  rw [recognise?, h]

/-- A default reaches up to its closing brace. -/
theorem recognise?_of_default {text : List Char} {n length : Nat}
    (h : opening? text = some (.default n length)) :
    recognise? text = (closingBrace? (text.drop length)).map fun fallback =>
      (.positional n (some fallback), length + fallback.length + 1) := by
  rw [recognise?, h]

/-- A reference is recognised, whatever is behind it. -/
theorem Token.recognise? {token rest : List Char} {reference : Reference}
    (h : Token token rest reference) :
    Param.recognise? (token ++ rest) = some (reference, token.length) := by
  cases h with
  | bare hindex hrest =>
    refine recognise?_of_whole ?_
    rw [List.cons_append, opening?_digits hindex.nonempty hindex.ascii hrest, hindex.index?]
    rfl
  | marker m => exact recognise?_of_whole (opening?_marker m rest)
  | braced _ hindex =>
    refine recognise?_of_whole ?_
    have hopen := (BracedOpening.whole hindex rest).braced?
    simpa [opening?_brace] using hopen
  | @fallback digits operator text n _ hindex ho htext =>
    have hopen := (opening?_brace _).trans
      (BracedOpening.default hindex ho (text ++ '\x7d' :: rest)).braced?
    have hdrop : (digits ++ (operator ++ (text ++ '\x7d' :: rest))).drop
        (digits.length + operator.length) = text ++ '\x7d' :: rest := by
      rw [← List.append_assoc, ← List.length_append, List.drop_left]
    simp only [List.cons_append, List.append_assoc, List.nil_append]
    rw [recognise?_of_default hopen, List.drop_succ_cons, List.drop_succ_cons, hdrop,
      closingBrace?_append htext]
    simp
    omega
  | bracedMarker m => exact recognise?_of_whole (BracedOpening.marker m rest).braced?

/-- What the reader finds at the front of a text is a token. -/
theorem token_of_recognise? {text : List Char} {reference : Reference} {length : Nat}
    (h : recognise? text = some (reference, length)) :
    ∃ token rest, text = token ++ rest ∧ token.length = length ∧ Token token rest reference := by
  rw [recognise?] at h
  split at h
  case h_1 found size hopen =>
    obtain ⟨rfl, rfl⟩ : found = reference ∧ size = length := by simpa using h
    obtain ⟨digits, rest, n, hindex, hrest, rfl, hwhole⟩ | ⟨m, rest, rfl, hwhole⟩ |
      ⟨rest, rfl, hbraced⟩ := opening?_cases hopen
    · cases hwhole
      exact ⟨'$' :: digits, rest, rfl, by simp, .bare hindex hrest⟩
    · cases hwhole
      exact ⟨['$', m.char], rest, rfl, rfl, .marker m rest⟩
    · cases hbraced with
      | marker m rest => exact ⟨['$', '\x7b', m.char, '\x7d'], rest, rfl, rfl, .bracedMarker m rest⟩
      | @whole digits n hindex rest =>
        exact ⟨'$' :: '\x7b' :: (digits ++ ['\x7d']), rest, by simp, by simp, .braced rest hindex⟩
  case h_2 n size hopen =>
    obtain ⟨found, hfound, hpair⟩ := Option.map_eq_some_iff.mp h
    obtain ⟨rfl, rfl⟩ : Reference.positional n (some found) = reference ∧
      size + found.length + 1 = length := by simpa using hpair
    obtain ⟨htext, after, hafter⟩ := defaultText_of_closingBrace? hfound
    obtain ⟨digits, rest, m, -, -, -, hwhole⟩ | ⟨m, rest, -, hwhole⟩ | ⟨rest, rfl, hbraced⟩ :=
      opening?_cases hopen
    · cases hwhole
    · cases hwhole
    · cases hbraced with
      | @default digits operator n hindex ho rest =>
        have hrest : rest = found ++ '\x7d' :: after := by
          rw [← hafter, List.drop_succ_cons, List.drop_succ_cons, ← List.append_assoc,
            ← List.length_append, List.drop_left]
        subst hrest
        exact ⟨'$' :: '\x7b' :: (digits ++ operator ++ found ++ ['\x7d']), after, by simp,
          by simp; omega, .fallback after hindex ho htext⟩
  · cases h

/-- **The reader finds exactly the tokens.** -/
theorem recognise?_eq_some_iff {text : List Char} {reference : Reference} {length : Nat} :
    recognise? text = some (reference, length) ↔
      ∃ token rest, text = token ++ rest ∧ token.length = length ∧ Token token rest reference := by
  refine ⟨token_of_recognise?, ?_⟩
  rintro ⟨token, rest, rfl, rfl, h⟩
  exact h.recognise?

/-! ### Tokens at places of a text -/

/-- A token stands in a text at the place of an occurrence and is as long as that says. -/
def TokenAt (text : List Char) (o : Occurrence) : Prop :=
  ∃ before token rest, text = before ++ (token ++ rest) ∧ before.length = o.start ∧
    token.length = o.length ∧ Token token rest o.reference

/-- The references of a text are those that are recognised in it. -/
theorem tokenAt_iff {text : List Char} {o : Occurrence} :
    TokenAt text o ↔ o.start ≤ text.length ∧
      recognise? (text.drop o.start) = some (o.reference, o.length) := by
  constructor
  · rintro ⟨before, token, rest, rfl, hstart, hlength, h⟩
    rw [← hstart, List.drop_left]
    exact ⟨by simp, recognise?_eq_some_iff.mpr ⟨token, rest, rfl, hlength, h⟩⟩
  · rintro ⟨hstart, h⟩
    obtain ⟨token, rest, hsplit, hlength, htoken⟩ := recognise?_eq_some_iff.mp h
    exact ⟨text.take o.start, token, rest, by rw [← hsplit, List.take_append_drop],
      List.length_take_of_le hstart, hlength, htoken⟩

end ShellSurvey.Param
