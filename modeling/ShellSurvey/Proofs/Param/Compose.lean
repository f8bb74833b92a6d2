import ShellSurvey.Proofs.Param.Signature
import ShellSurvey.Proofs.Text.Split

/-!
# References of texts side by side

No opening of a reference goes across a character that stands in none, such as a line break or a
space. Only a default text can. So if every default text that is opened in a text is closed in it
(`Closes`), what stands behind such a separator is scanned as if it stood alone.

* `opening?_append_separator` — openings end at a separator;
* `scan_append` — what is found on both sides is what is found on each of them;
* `infer_append` — the parameters of two bodies, one line behind the other, are merged.

That `scan_append` holds is read off the three laws that fix what a scan finds, without looking at
its steps: a token that needs something from behind the separator is opened before it, so the scan
of the front has passed over it inside of another token.
-/

namespace ShellSurvey.Param

/-! ### Openings end at a separator -/

/-- The characters of openings other than digits. -/
def marks : List Char := ['$', '@', '*', '\x7b', '\x7d', ':', '-']

/-- Whether a character stands in no opening. -/
def isSeparator (c : Char) : Bool :=
  !(c.isDigit || marks.contains c)

theorem mem_marks_of_mem_operators {operator : List Char} (h : operator ∈ operators) {d : Char}
    (hd : d ∈ operator) : d ∈ marks := by
  rw [operators, List.mem_cons, List.mem_singleton] at h
  rcases h with rfl | rfl
  · rcases List.mem_cons.mp hd with rfl | hd
    · simp [marks]
    · simp_all [marks]
  · simp_all [marks]

section Separator

variable {c : Char} (hc : isSeparator c = true)
include hc

theorem isDigit_separator : c.isDigit = false := by
  simp only [isSeparator, Bool.not_eq_true', Bool.or_eq_false_iff] at hc
  exact hc.1

theorem separator_not_mem {front : List Char}
    (h : ∀ d ∈ front, d.isDigit ∨ d ∈ marks) : c ∉ front := by
  intro hmem
  simp only [isSeparator, Bool.not_eq_true', Bool.or_eq_false_iff] at hc
  rcases h c hmem with hdigit | hmark
  · rw [hc.1] at hdigit
    cases hdigit
  · rw [← List.contains_iff_mem, hc.2] at hmark
    cases hmark

/-- What an opening is made of stands on one side of a separator. -/
theorem exists_before_separator {front after text rest : List Char}
    (hsplit : text ++ c :: rest = front ++ after) (hfront : ∀ d ∈ front, d.isDigit ∨ d ∈ marks) :
    ∃ more, text = front ++ more ∧ after = more ++ c :: rest :=
  Text.exists_of_append_eq hsplit.symm (separator_not_mem hc hfront)

/-- A separator ends the beginning of a braced reference. -/
theorem bracedOpening_append_separator {text : List Char} (rest : List Char) {opening : Opening} :
    BracedOpening (text ++ c :: rest) opening ↔ BracedOpening text opening := by
  constructor
  · intro h
    generalize hwhole : text ++ c :: rest = whole at h
    cases h with
    | marker m after =>
      have hsplit : text ++ c :: rest = [m.char, '\x7d'] ++ after := hwhole
      obtain ⟨more, rfl, -⟩ := exists_before_separator hc hsplit
        (by cases m <;> simp [marks, RestMarker.char])
      exact .marker m more
    | @whole digits n hindex after =>
      have hsplit : text ++ c :: rest = (digits ++ ['\x7d']) ++ after := by
        rw [hwhole, List.append_assoc, List.singleton_append]
      obtain ⟨more, rfl, -⟩ := exists_before_separator hc hsplit fun d hd => by
        rcases List.mem_append.mp hd with hd | hd
        · exact .inl (hindex.ascii d hd)
        · exact .inr (by simp_all [marks])
      simpa using BracedOpening.whole hindex more
    | @default digits operator n hindex ho after =>
      have hsplit : text ++ c :: rest = (digits ++ operator) ++ after := by
        rw [hwhole, List.append_assoc]
      obtain ⟨more, rfl, -⟩ := exists_before_separator hc hsplit fun d hd => by
        rcases List.mem_append.mp hd with hd | hd
        · exact .inl (hindex.ascii d hd)
        · exact .inr (mem_marks_of_mem_operators ho hd)
      simpa using BracedOpening.default hindex ho more
  · intro h
    cases h with
    | marker m after => exact .marker m (after ++ c :: rest)
    | whole hindex after => simpa using BracedOpening.whole hindex (after ++ c :: rest)
    | default hindex ho after => simpa using BracedOpening.default hindex ho (after ++ c :: rest)

/-- What is behind a separator does not change how a reference begins. -/
theorem opening?_append_separator (text rest : List Char) :
    opening? (text ++ c :: rest) = opening? text := by
  refine Option.ext fun opening => ⟨fun h => ?_, fun h => ?_⟩
  · obtain ⟨digits, after, n, hindex, hafter, hwhole, rfl⟩ | ⟨m, after, hwhole, rfl⟩ |
      ⟨after, hwhole, hbraced⟩ := opening?_cases h
    · have hsplit : text ++ c :: rest = ('$' :: digits) ++ after := hwhole
      obtain ⟨more, rfl, rfl⟩ := exists_before_separator hc hsplit fun d hd => by
        rcases List.mem_cons.mp hd with rfl | hd
        · exact .inr (by simp [marks])
        · exact .inl (hindex.ascii d hd)
      have hmore : ∀ d ∈ more.head?, d.isDigit = false := by
        cases more with
        | nil => simp
        | cons d more => exact hafter
      rw [List.cons_append, opening?_digits hindex.nonempty hindex.ascii hmore, hindex.index?]
      rfl
    · have hsplit : text ++ c :: rest = ['$', m.char] ++ after := hwhole
      obtain ⟨more, rfl, -⟩ := exists_before_separator hc hsplit
        (by cases m <;> simp [marks, RestMarker.char])
      exact opening?_marker m more
    · have hsplit : text ++ c :: rest = ['$', '\x7b'] ++ after := hwhole
      obtain ⟨more, rfl, rfl⟩ := exists_before_separator hc hsplit (by simp [marks])
      exact ((bracedOpening_append_separator hc rest).mp hbraced).braced?
  · obtain ⟨digits, after, n, hindex, hafter, rfl, rfl⟩ | ⟨m, after, rfl, rfl⟩ |
      ⟨after, rfl, hbraced⟩ := opening?_cases h
    · rw [List.cons_append, List.append_assoc, opening?_digits hindex.nonempty hindex.ascii
        (Text.forall_head?_append_cons hafter (isDigit_separator hc) rest), hindex.index?]
      rfl
    · exact opening?_marker m (after ++ c :: rest)
    · exact ((bracedOpening_append_separator hc rest).mpr hbraced).braced?

end Separator

/-! ### Texts side by side -/

/-- A closing brace that is found stays the first one. -/
theorem closingBrace?_append_of_some {text before : List Char}
    (h : closingBrace? text = some before) (rest : List Char) :
    closingBrace? (text ++ rest) = some before := by
  obtain ⟨hdefault, after, rfl⟩ := defaultText_of_closingBrace? h
  rw [List.append_assoc, List.cons_append, closingBrace?_append hdefault]

/-- Every search for a closing brace that a scan of the text makes succeeds: wherever a default
text is opened, and not inside of what is found, a closing brace ends it. -/
def Closes (text : List Char) : Prop :=
  ∀ place n length, (∀ o ∈ scanOnce text, ¬(o.start < place ∧ place < o.stop)) →
    opening? (text.drop place) = some (.default n length) →
    (closingBrace? (text.drop (place + length))).isSome

/-- Whether a default text that is opened at a place is closed. -/
def isClosedAt (text : List Char) (place : Nat) : Bool :=
  match opening? (text.drop place) with
  | some (.default _ length) => (closingBrace? (text.drop (place + length))).isSome
  | _ => true

/-- Beyond the end of a text nothing is opened, so finitely many places decide. -/
theorem closes_iff {text : List Char} :
    Closes text ↔ ∀ place < text.length,
      (∀ o ∈ scanOnce text, ¬(o.start < place ∧ place < o.stop)) → isClosedAt text place := by
  constructor
  · intro h place _ hreached
    rw [isClosedAt]
    split
    case h_1 n length hopen => exact h place n length hreached hopen
    case h_2 => rfl
  · intro h place n length hreached hopen
    have hclosed := h place (lt_length_of_opening? hopen) hreached
    rwa [isClosedAt, hopen] at hclosed

instance (text : List Char) : Decidable (Closes text) :=
  decidable_of_iff _ closes_iff.symm

-- An opening inside of a token found does not count; one that a backslash keeps open does.
example : Closes "$\x7b1:-$\x7b2-\x7d $\x7b3:".toList ∧ ¬Closes "$\x7b1:-a\\\x7d".toList := by
  decide

/-- The occurrence in a text that stands behind `k` further characters. -/
def Occurrence.shift (k : Nat) (o : Occurrence) : Occurrence :=
  { o with start := k + o.start }

theorem TokenAt.stop_le {text : List Char} {o : Occurrence} (h : TokenAt text o) :
    o.stop ≤ text.length := by
  obtain ⟨before, token, rest, rfl, hstart, hlength, -⟩ := h
  rw [Occurrence.stop, List.length_append, List.length_append]
  omega

section Separator

variable {c : Char} (hc : isSeparator c = true)
include hc

/-- A reference is recognised as before if the text goes on behind a separator. -/
theorem recognise?_append_separator {text : List Char} {found : Reference × Nat}
    (h : recognise? text = some found) (rest : List Char) :
    recognise? (text ++ c :: rest) = some found := by
  rw [recognise?] at h
  split at h
  case h_1 reference length hopen =>
    rw [recognise?_of_whole ((opening?_append_separator hc text rest).trans hopen), h]
  case h_2 n length hopen =>
    obtain ⟨fallback, hclose, hfound⟩ := Option.map_eq_some_iff.mp h
    have hlength : length ≤ text.length := by
      by_contra hlong
      rw [List.drop_eq_nil_of_le (Nat.le_of_not_le hlong)] at hclose
      cases hclose
    rw [recognise?_of_default ((opening?_append_separator hc text rest).trans hopen),
      List.drop_append_of_le_length hlength, closingBrace?_append_of_some hclose, Option.map_some,
      hfound]
  · cases h

/-- Where a token starts only with the help of what stands behind the separator, its default text
is opened before and not closed. -/
theorem exists_default_of_recognise?_append {text rest : List Char} {found : Reference × Nat}
    (h : recognise? (text ++ c :: rest) = some found) (hnone : recognise? text = none) :
    ∃ n length, opening? text = some (.default n length) ∧
      closingBrace? (text.drop length) = none := by
  rw [recognise?, opening?_append_separator hc] at h
  rw [recognise?] at hnone
  cases hopen : opening? text with
  | none => simp [hopen] at h
  | some opening =>
    cases opening with
    | whole reference length => simp [hopen] at hnone
    | default n length => exact ⟨n, length, rfl, by simpa [hopen] using hnone⟩

theorem recognise?_separator (rest : List Char) : recognise? (c :: rest) = none := by
  rw [recognise?, ← List.nil_append (c :: rest), opening?_append_separator hc]
  rfl

variable {a b : List Char} {o : Occurrence}

theorem TokenAt.append_separator (h : TokenAt a o) : TokenAt (a ++ c :: b) o := by
  obtain ⟨hstart, hread⟩ := tokenAt_iff.mp h
  refine tokenAt_iff.mpr ⟨?_, ?_⟩
  · rw [List.length_append]
    exact Nat.le_add_right_of_le hstart
  · rw [List.drop_append_of_le_length hstart]
    exact recognise?_append_separator hc hread b

omit hc in
/-- The references behind a separator are those of the text there, at later places. -/
theorem tokenAt_shift_iff : TokenAt (a ++ c :: b) (o.shift (a.length + 1)) ↔ TokenAt b o := by
  have hdrop : (a ++ c :: b).drop (a.length + 1 + o.start) = b.drop o.start := by
    have hfront : a.length + 1 = (a ++ [c]).length := by simp
    rw [← List.drop_drop, hfront, List.append_cons a c b, List.drop_left]
  rw [tokenAt_iff, tokenAt_iff, Occurrence.shift, hdrop, List.length_append, List.length_cons]
  have hstart : a.length + 1 + o.start ≤ a.length + (b.length + 1) ↔ o.start ≤ b.length := by
    omega
  exact and_congr_left' hstart

/-- Whatever starts before the separator starts in a token that is found there. -/
theorem Closes.exists_span (ha : Closes a) (h : TokenAt (a ++ c :: b) o)
    (hlt : o.start < a.length) : ∃ p ∈ scan a, p.start ≤ o.start ∧ o.start < p.stop := by
  obtain ⟨-, hread⟩ := tokenAt_iff.mp h
  rw [List.drop_append_of_le_length hlt.le] at hread
  cases hfound : recognise? (a.drop o.start) with
  | some found =>
    exact (leftmost_scan a).complete ⟨o.start, found.2, found.1⟩
      (tokenAt_iff.mpr ⟨hlt.le, hfound⟩)
  | none =>
    -- a token that needs `b` is opened in `a`: the scan of `a` has passed over it
    obtain ⟨n, length, hopen, hclose⟩ := exists_default_of_recognise?_append hc hread hfound
    by_contra hout
    have hreached : ∀ p ∈ scanOnce a, ¬(p.start < o.start ∧ o.start < p.stop) :=
      fun p hp hin => hout ⟨p, scanOnce_eq_scan a ▸ hp, hin.1.le, hin.2⟩
    have hsome := ha o.start n length hreached hopen
    rw [← List.drop_drop, hclose] at hsome
    cases hsome

/-- The scans of two texts, one behind the other, are the scan of both. -/
theorem leftmost_append (ha : Closes a) (b : List Char) :
    Leftmost (a ++ c :: b) (scan a ++ (scan b).map (·.shift (a.length + 1))) := by
  refine ⟨fun o ho => ?_, ?_, fun o ho => ?_⟩
  · rcases List.mem_append.mp ho with ho | ho
    · exact (tokenAt_of_mem_scan ho).append_separator hc
    · obtain ⟨p, hp, rfl⟩ := List.mem_map.mp ho
      exact tokenAt_shift_iff.mpr (tokenAt_of_mem_scan hp)
  · refine List.pairwise_append.mpr ⟨(leftmost_scan a).apart,
      List.pairwise_map.mpr ((leftmost_scan b).apart.imp fun {x y} hxy => ?_),
      fun x hx y hy => ?_⟩
    · simp only [Occurrence.shift, Occurrence.stop] at hxy ⊢
      omega
    · -- what is found in `a` ends before the separator
      obtain ⟨p, -, rfl⟩ := List.mem_map.mp hy
      have hle := (tokenAt_of_mem_scan hx).stop_le
      have hlt := (tokenAt_of_mem_scan hx).start_lt_stop
      simp only [Occurrence.shift]
      omega
  · rcases Nat.lt_trichotomy o.start a.length with hlt | heq | hgt
    · obtain ⟨p, hp, hspan⟩ := ha.exists_span hc ho hlt
      exact ⟨p, List.mem_append_left _ hp, hspan⟩
    · obtain ⟨-, hread⟩ := tokenAt_iff.mp ho
      rw [heq, List.drop_left, recognise?_separator hc] at hread
      cases hread
    · obtain ⟨k, hk⟩ : ∃ k, o.start = a.length + 1 + k := Nat.exists_eq_add_of_le hgt
      obtain ⟨q, rfl⟩ : ∃ q : Occurrence, o = q.shift (a.length + 1) :=
        ⟨⟨k, o.length, o.reference⟩, by rw [Occurrence.shift, ← hk]⟩
      obtain ⟨p, hp, hspan⟩ := (leftmost_scan b).complete _ (tokenAt_shift_iff.mp ho)
      refine ⟨_, List.mem_append_right _ (List.mem_map_of_mem hp), ?_⟩
      simp only [Occurrence.shift, Occurrence.stop] at hspan ⊢
      omega

/-- **Nothing is found across a separator**: what stands before it and what stands behind it are
scanned apart. -/
theorem scan_append (ha : Closes a) (b : List Char) :
    scan (a ++ c :: b) = scan a ++ (scan b).map (·.shift (a.length + 1)) := by
  rw [← scanOnce_eq_scan, ← leftmost_iff.mp (leftmost_append hc ha b)]

/-- The references of two texts with a separator in between are put together. -/
theorem references_append (ha : Closes a) (b : List Char) :
    (scan (a ++ c :: b)).map (·.reference) =
      (scan a).map (·.reference) ++ (scan b).map (·.reference) := by
  rw [scan_append hc ha, List.map_append, List.map_map]
  rfl

end Separator

/-! ### Summaries of two lists of references -/

theorem highestIndex_append (first second : List Reference) :
    highestIndex (first ++ second) = max (highestIndex first) (highestIndex second) := by
  induction first with
  | nil => simp [highestIndex]
  | cons r first ih =>
    rw [List.cons_append, highestIndex_cons, highestIndex_cons, ih, Nat.max_assoc]

theorem firstDefault?_append (first second : List Reference) (i : Nat) :
    firstDefault? (first ++ second) i = (firstDefault? first i).or (firstDefault? second i) :=
  List.findSome?_append

theorem firstMarker?_append (first second : List Reference) :
    firstMarker? (first ++ second) = (firstMarker? first).or (firstMarker? second) :=
  List.findSome?_append

/-- An index with a default is counted. -/
theorem le_highestIndex {references : List Reference} {i : Nat} {text : List Char}
    (h : firstDefault? references i = some text) : i ≤ highestIndex references := by
  obtain ⟨r, hr, htext⟩ := List.exists_of_findSome?_eq_some h
  obtain ⟨-, rfl⟩ := defaultFor?_eq_some_iff.mp htext
  exact highestIndex_le_iff.mp (Nat.le_refl _) _ hr i rfl

/-! ### Merged parameters -/

/-- The positional ones among parameters. -/
def positionals (params : List Param) : List Param :=
  params.filter (!·.rest)

/-- The default text of the positional parameter of an index. -/
def defaultOf? (params : List Param) (i : Nat) : Option String :=
  ((positionals params)[i - 1]?).bind (·.fallback)

/-- The parameters of two bodies, one behind the other: as many positional ones as the longer list
has, each with its default text in the first list or else in the second, and the first parameter
for all remaining arguments. -/
def merge (first second : List Param) : List Param :=
  (List.range' 1 (max (positionals first).length (positionals second).length)).map (fun i =>
    let fallback := (defaultOf? first i).or (defaultOf? second i)
    { name := "$" ++ toString i, optional := fallback.isSome, rest := false, fallback }) ++
  ((first.find? (·.rest)).or (second.find? (·.rest))).toList

/-- The parameter of an index that references imply. -/
def positionalOf (references : List Reference) (i : Nat) : Param where
  name := "$" ++ toString i
  optional := (firstDefault? references i).isSome
  rest := false
  fallback := (firstDefault? references i).map String.ofList

theorem paramsOf_eq (references : List Reference) :
    paramsOf references = (List.range' 1 (highestIndex references)).map (positionalOf references) ++
      ((firstMarker? references).map Signature.remaining).toList := rfl

theorem positionals_paramsOf (references : List Reference) :
    positionals (paramsOf references) =
      (List.range' 1 (highestIndex references)).map (positionalOf references) := by
  have hkept : ∀ p ∈ (List.range' 1 (highestIndex references)).map (positionalOf references),
      (!p.rest) = true := by
    intro p hp
    obtain ⟨i, -, rfl⟩ := List.mem_map.mp hp
    rfl
  have hdropped :
      ((firstMarker? references).map Signature.remaining).toList.filter (!·.rest) = [] := by
    cases firstMarker? references <;> rfl
  rw [positionals, paramsOf_eq, List.filter_append, List.filter_eq_self.mpr hkept, hdropped,
    List.append_nil]

/-- The default of a parameter is the first one that is given for its index. -/
theorem defaultOf?_paramsOf (references : List Reference) {i : Nat} (hi : 1 ≤ i) :
    defaultOf? (paramsOf references) i = (firstDefault? references i).map String.ofList := by
  rw [defaultOf?, positionals_paramsOf, List.getElem?_map]
  by_cases hle : i ≤ highestIndex references
  · rw [List.getElem?_range' (by omega), Nat.one_mul, Nat.add_sub_cancel' hi]
    rfl
  · have hnone : firstDefault? references i = none := by
      by_contra hsome
      obtain ⟨text, htext⟩ := Option.ne_none_iff_exists'.mp hsome
      exact hle (le_highestIndex htext)
    rw [List.getElem?_eq_none (by simp; omega), hnone]
    rfl

theorem find?_rest_paramsOf (references : List Reference) :
    (paramsOf references).find? (·.rest) = (firstMarker? references).map Signature.remaining := by
  have hnone : ((List.range' 1 (highestIndex references)).map (positionalOf references)).find?
      (·.rest) = none := by
    refine List.find?_eq_none.mpr fun p hp => ?_
    obtain ⟨i, -, rfl⟩ := List.mem_map.mp hp
    exact Bool.false_ne_true
  rw [paramsOf_eq, List.find?_append, hnone, Option.none_or]
  cases firstMarker? references <;> rfl

/-- Merging the parameters of two bodies gives those of both together. -/
theorem merge_paramsOf (first second : List Reference) :
    merge (paramsOf first) (paramsOf second) = paramsOf (first ++ second) := by
  rw [merge, find?_rest_paramsOf, find?_rest_paramsOf, paramsOf_eq (first ++ second),
    firstMarker?_append, Option.map_or]
  simp only [positionals_paramsOf, List.length_map, List.length_range', highestIndex_append]
  congr 1
  refine List.map_congr_left fun i hi => ?_
  have hpos : 1 ≤ i := (List.mem_range'_1.mp hi).1
  rw [positionalOf, firstDefault?_append, defaultOf?_paramsOf first hpos,
    defaultOf?_paramsOf second hpos, ← Option.map_or, Option.isSome_map]

/-- **Parameters are inferred piece by piece**: a line break keeps the references before it and
behind it apart, unless one before it waits for its closing brace. -/
theorem infer_append {a : List Char} (ha : Closes a) (b : List Char) :
    infer (a ++ '\n' :: b) = merge (infer a) (infer b) := by
  have hsep : isSeparator '\n' = true := by decide
  simp only [infer, params_ofReferences, scanOnce_eq_scan, merge_paramsOf,
    references_append hsep ha]

/-- The first line ends in the middle of an opening, and the default text in it has an opening and
a hidden brace. -/
theorem infer_append_cut :
    Closes "$\x7b2:-$\x7b1-\\\x7d\x7d $\x7b3:".toList ∧
      infer ("$\x7b2:-$\x7b1-\\\x7d\x7d $\x7b3:".toList ++ '\n' :: "-\x7d $*".toList) =
        merge (infer "$\x7b2:-$\x7b1-\\\x7d\x7d $\x7b3:".toList) (infer "-\x7d $*".toList) :=
  ⟨by decide, infer_append (by decide) _⟩

end ShellSurvey.Param
