import ShellSurvey.Proofs.Param.Token

/-!
# The leftmost tokens of a text

A text is read from left to right. What is found are its **leftmost tokens**: each of them is a
token, none reaches into the next, and a token that is not found starts inside one that is. These
three laws fix the list (`Leftmost.unique`), so `leftmost_iff` says all there is to say about the
occurrences that a scan reports.

`scanOnce` remembers a search for a closing brace that failed and does not search from there on.
It finds the same (`scanOnce_eq_scan`), and for one reason only: a search starts right behind the
dash of an operator, and nothing hides a dash without being passed together with it.
-/

namespace ShellSurvey.Param

/-! ### Failed searches -/

/-- What a remembered place promises about the text that remains from `place` on: a search that
starts there or later, behind a character other than a backslash, fails. -/
def Unclosed (unclosed : Option Nat) (place : Nat) (text : List Char) : Prop :=
  ∀ start ∈ unclosed, ∀ before c after, text = before ++ c :: after → c ≠ '\\' →
    start ≤ place + before.length + 1 → closingBrace? after = none

theorem unclosed_none (place : Nat) (text : List Char) : Unclosed none place text := by
  intro start hstart
  cases hstart

/-- A search that fails somewhere fails further on too. -/
theorem Unclosed.tail {unclosed : Option Nat} {place : Nat} {c : Char} {after : List Char}
    (h : Unclosed unclosed place (c :: after)) : Unclosed unclosed (place + 1) after := by
  rintro start hstart before d rest rfl hd hle
  refine h start hstart (c :: before) d rest rfl hd ?_
  rw [List.length_cons]
  omega

/-- A search that fails is worth remembering. -/
theorem unclosed_of_failed {place length : Nat} {text : List Char}
    (h : closingBrace? (text.drop length) = none) :
    Unclosed (some (place + length)) place text := by
  rintro start hstart before c after rfl hc hle
  obtain rfl : place + length = start := Option.some_inj.mp hstart
  rcases Nat.lt_or_ge before.length length with hlt | hge
  · have hlength : length = (before ++ [c]).length := by simp; omega
    rwa [hlength, List.append_cons before c after, List.drop_left] at h
  · rw [List.drop_append_of_le_length hge] at h
    exact closingBrace?_eq_none_of_append hc h

/-- Under what a remembered place promises, the search it saves would have failed. -/
theorem Unclosed.closingBrace? {unclosed : Option Nat} {place n length : Nat} {text : List Char}
    (h : Unclosed unclosed place text) (hopen : opening? text = some (.default n length))
    (hopeless : isHopeless unclosed (place + length) = true) :
    Param.closingBrace? (text.drop length) = none := by
  obtain ⟨before, after, rfl, rfl⟩ := dash_of_opening?_default hopen
  cases unclosed with
  | none => cases hopeless
  | some start =>
    have hle : start ≤ place + (before.length + 1) := of_decide_eq_true hopeless
    rw [List.append_cons, ← List.length_singleton (a := '-'), ← List.length_append, List.drop_left]
    exact h start rfl before '-' after rfl (by decide) (by omega)

/-- Not searching again where no brace can be found changes nothing. -/
theorem scanOnceFrom_eq_scanFrom {unclosed : Option Nat} {place skip : Nat} {text : List Char}
    (h : Unclosed unclosed place text) :
    scanOnceFrom unclosed place skip text = scanFrom place skip text := by
  induction text generalizing unclosed place skip with
  | nil => rfl
  | cons c after ih =>
    cases skip with
    | succ skip => exact ih h.tail
    | zero =>
      rw [scanOnceFrom, scanFrom]
      cases hopen : opening? (c :: after) with
      | none =>
        rw [recognise?, hopen]
        exact ih h.tail
      | some opening =>
        cases opening with
        | whole reference length =>
          rw [recognise?_of_whole hopen]
          simp only [ih h.tail]
        | default n length =>
          rw [recognise?_of_default hopen]
          simp only
          split_ifs with hopeless
          · rw [h.closingBrace? hopen hopeless]
            exact ih h.tail
          · cases hclose : Param.closingBrace? ((c :: after).drop length) with
            | none => exact ih (unclosed_of_failed hclose).tail
            | some fallback => simp only [Option.map_some, ih h.tail, Nat.add_sub_cancel]

/-- The scan that looks for a closing brace once finds what the plain scan finds. -/
theorem scanOnce_eq_scan (text : List Char) : scanOnce text = scan text :=
  scanOnceFrom_eq_scanFrom (unclosed_none 0 text)

theorem lt_length_of_opening? {text : List Char} {place : Nat} {opening : Opening}
    (h : opening? (text.drop place) = some opening) : place < text.length := by
  by_contra hlong
  rw [List.drop_eq_nil_of_le (Nat.le_of_not_lt hlong)] at h
  cases h

/-- A place at which a scan seeks a closing brace: right behind the opening of a reference with a
default text. -/
def SearchStart (text : List Char) (start : Nat) : Prop :=
  ∃ place n length, opening? (text.drop place) = some (.default n length) ∧
    start = place + length

/-- A search for a closing brace starts behind a dash. -/
theorem SearchStart.dash {text : List Char} {start : Nat} (h : SearchStart text start) :
    ∃ before after, text = before ++ '-' :: after ∧ start = before.length + 1 := by
  obtain ⟨place, n, length, hopen, rfl⟩ := h
  obtain ⟨before, after, hdrop, rfl⟩ := dash_of_opening?_default hopen
  have hplace := lt_length_of_opening? hopen
  refine ⟨text.take place ++ before, after, ?_, ?_⟩
  · rw [List.append_assoc, ← hdrop, List.take_append_drop]
  · rw [List.length_append, List.length_take_of_le hplace.le, Nat.add_assoc]

/-- **Remembering a failed search changes nothing**: the same is found as by a scan that searches
every time. Where a search fails, so does each one that a scan starts there or later. -/
theorem scanOnce_transparent (text : List Char) :
    scanOnce text = scan text ∧
      ∀ start later, closingBrace? (text.drop start) = none → start ≤ later →
        SearchStart text later → closingBrace? (text.drop later) = none := by
  refine ⟨scanOnce_eq_scan text, fun start later hfailed hle hlater => ?_⟩
  obtain ⟨before, after, rfl, rfl⟩ := hlater.dash
  have hunclosed : Unclosed (some (0 + start)) 0 (before ++ '-' :: after) :=
    unclosed_of_failed hfailed
  rw [List.append_cons, ← List.length_singleton (a := '-'), ← List.length_append, List.drop_left]
  exact hunclosed (0 + start) rfl before '-' after rfl (by decide) (by omega)

-- Elsewhere a later search may succeed: behind the backslash, the brace stands bare.
example : closingBrace? ['\\', '\x7d'] = none ∧ closingBrace? ['\x7d'] = some [] :=
  ⟨rfl, rfl⟩

/-! ### What a scan finds -/

/-- The leftmost tokens of a text. -/
structure Leftmost (text : List Char) (found : List Occurrence) : Prop where
  /-- What is found is a token. -/
  sound : ∀ o ∈ found, TokenAt text o
  /-- What is found stands apart, from left to right. -/
  apart : found.Pairwise fun a b => a.start < b.start ∧ a.stop ≤ b.start
  /-- No token starts outside of what is found. -/
  complete : ∀ o, TokenAt text o → ∃ p ∈ found, p.start ≤ o.start ∧ o.start < p.stop

theorem TokenAt.start_lt_stop {text : List Char} {o : Occurrence} (h : TokenAt text o) :
    o.start < o.stop := by
  obtain ⟨before, token, rest, -, -, hlength, htoken⟩ := h
  have hpos := htoken.length_pos
  rw [Occurrence.stop]
  omega

theorem length_pos_of_recognise? {text : List Char} {reference : Reference} {length : Nat}
    (h : recognise? text = some (reference, length)) : 0 < length := by
  obtain ⟨token, rest, -, hlength, htoken⟩ := token_of_recognise? h
  exact hlength ▸ htoken.length_pos

theorem recognise?_nil : recognise? [] = none := rfl

theorem start_of_mem_scanFrom {place skip : Nat} {text : List Char} {o : Occurrence}
    (h : o ∈ scanFrom place skip text) : place + skip ≤ o.start := by
  induction text generalizing place skip with
  | nil => cases h
  | cons c after ih =>
    cases skip with
    | succ skip =>
      have hle : place + 1 + skip ≤ o.start := ih h
      omega
    | zero =>
      rw [scanFrom] at h
      cases hread : recognise? (c :: after) with
      | none =>
        rw [hread] at h
        have hle := ih h
        omega
      | some found =>
        rw [hread] at h
        rcases List.mem_cons.mp h with rfl | hmem
        · exact Nat.le_refl place
        · have hle := ih hmem
          omega

/-- Whatever a scan finds is read at the place where it is found. -/
theorem recognise?_of_mem_scanFrom {place skip : Nat} {text : List Char} {o : Occurrence}
    (h : o ∈ scanFrom place skip text) :
    recognise? (text.drop (o.start - place)) = some (o.reference, o.length) := by
  induction text generalizing place skip with
  | nil => cases h
  | cons c after ih =>
    have hlater : ∀ skip, o ∈ scanFrom (place + 1) skip after →
        recognise? ((c :: after).drop (o.start - place)) = some (o.reference, o.length) := by
      intro skip hmem
      have hle := start_of_mem_scanFrom hmem
      have hsub : o.start - place = o.start - (place + 1) + 1 := by omega
      rw [hsub, List.drop_succ_cons]
      exact ih hmem
    cases skip with
    | succ skip => exact hlater skip h
    | zero =>
      rw [scanFrom] at h
      cases hread : recognise? (c :: after) with
      | none =>
        rw [hread] at h
        exact hlater 0 h
      | some found =>
        rw [hread] at h
        rcases List.mem_cons.mp h with rfl | hmem
        · simpa using hread
        · exact hlater _ hmem

/-- The references are found from left to right, and none overlaps another. -/
theorem pairwise_scanFrom (place skip : Nat) (text : List Char) :
    (scanFrom place skip text).Pairwise fun a b => a.stop ≤ b.start := by
  induction text generalizing place skip with
  | nil => exact .nil
  | cons c after ih =>
    cases skip with
    | succ skip => exact ih (place + 1) skip
    | zero =>
      rw [scanFrom]
      cases hread : recognise? (c :: after) with
      | none => exact ih (place + 1) 0
      | some found =>
        have hpos := length_pos_of_recognise? hread
        refine List.pairwise_cons.mpr ⟨fun b hb => ?_, ih (place + 1) _⟩
        have hle := start_of_mem_scanFrom hb
        show place + found.2 ≤ b.start
        omega

/-- A scan passes over a token only inside of another one. -/
theorem exists_mem_scanFrom {place skip start length : Nat} {text : List Char}
    {reference : Reference} (hle : place + skip ≤ start)
    (h : recognise? (text.drop (start - place)) = some (reference, length)) :
    ∃ p ∈ scanFrom place skip text, p.start ≤ start ∧ start < p.stop := by
  induction text generalizing place skip with
  | nil => simp [recognise?_nil] at h
  | cons c after ih =>
    have hlater : ∀ skip, place + 1 + skip ≤ start →
        ∃ p ∈ scanFrom (place + 1) skip after, p.start ≤ start ∧ start < p.stop := by
      intro skip hskip
      have hsub : start - place = start - (place + 1) + 1 := by omega
      rw [hsub, List.drop_succ_cons] at h
      exact ih hskip h
    cases skip with
    | succ skip => exact hlater skip (by omega)
    | zero =>
      rw [scanFrom]
      rcases Nat.eq_or_lt_of_le hle with heq | hlt
      · obtain rfl : place = start := heq
        rw [Nat.sub_self, List.drop_zero] at h
        rw [h]
        have hpos := length_pos_of_recognise? h
        exact ⟨_, List.mem_cons_self, Nat.le_refl place, Nat.lt_add_of_pos_right hpos⟩
      · cases hread : recognise? (c :: after) with
        | none => exact hlater 0 (by omega)
        | some found =>
          -- the token starts either inside of the one found here, or behind it
          rcases Nat.lt_or_ge start (place + found.2) with hin | hout
          · exact ⟨_, List.mem_cons_self, Nat.le_of_lt hlt, hin⟩
          · have hpos := length_pos_of_recognise? hread
            obtain ⟨p, hp, hspan⟩ := hlater (found.2 - 1) (by omega)
            exact ⟨p, List.mem_cons_of_mem _ hp, hspan⟩

/-- What is found is a reference where it is found. -/
theorem tokenAt_of_mem_scan {text : List Char} {o : Occurrence} (h : o ∈ scan text) :
    TokenAt text o := by
  have hread := recognise?_of_mem_scanFrom h
  rw [Nat.sub_zero] at hread
  refine tokenAt_iff.mpr ⟨?_, hread⟩
  by_contra hlong
  rw [List.drop_eq_nil_of_le (Nat.le_of_not_le hlong), recognise?_nil] at hread
  cases hread

/-- A scan finds the leftmost tokens. -/
theorem leftmost_scan (text : List Char) : Leftmost text (scan text) where
  sound _ ho := tokenAt_of_mem_scan ho
  apart := (pairwise_scanFrom 0 0 text).imp_of_mem fun ha _ hab =>
    ⟨(tokenAt_of_mem_scan ha).start_lt_stop.trans_le hab, hab⟩
  complete o ho := exists_mem_scanFrom (by omega) (tokenAt_iff.mp ho).2

/-! ### The leftmost tokens are unique -/

/-- The leftmost tokens from a place on. -/
private structure LeftmostFrom (text : List Char) (place : Nat) (found : List Occurrence) :
    Prop where
  sound : ∀ o ∈ found, TokenAt text o
  within : ∀ o ∈ found, place ≤ o.start
  apart : found.Pairwise fun a b => a.start < b.start ∧ a.stop ≤ b.start
  complete : ∀ o, TokenAt text o → place ≤ o.start →
    ∃ p ∈ found, p.start ≤ o.start ∧ o.start < p.stop

private theorem LeftmostFrom.tail {text : List Char} {place : Nat} {x : Occurrence}
    {found : List Occurrence} (h : LeftmostFrom text place (x :: found)) :
    LeftmostFrom text x.stop found where
  sound o ho := h.sound o (List.mem_cons_of_mem x ho)
  within o ho := (List.rel_of_pairwise_cons h.apart ho).2
  apart := h.apart.of_cons
  complete o ho hle := by
    have hx := h.within x List.mem_cons_self
    have hpos := (h.sound x List.mem_cons_self).start_lt_stop
    obtain ⟨p, hp, hspan⟩ := h.complete o ho (by omega)
    rcases List.mem_cons.mp hp with rfl | hp
    · omega
    · exact ⟨p, hp, hspan⟩

/-- Nothing starts before the first token found. -/
private theorem LeftmostFrom.head_le {text : List Char} {place : Nat} {x o : Occurrence}
    {found : List Occurrence} (h : LeftmostFrom text place (x :: found)) (ho : TokenAt text o)
    (hle : place ≤ o.start) : x.start ≤ o.start := by
  obtain ⟨p, hp, hspan⟩ := h.complete o ho hle
  rcases List.mem_cons.mp hp with rfl | hp
  · exact hspan.1
  · exact (List.rel_of_pairwise_cons h.apart hp).1.le.trans hspan.1

/-- At one place stands at most one token. -/
theorem TokenAt.eq_of_start_eq {text : List Char} {a b : Occurrence} (ha : TokenAt text a)
    (hb : TokenAt text b) (h : a.start = b.start) : a = b := by
  have hread := (tokenAt_iff.mp ha).2
  rw [h, (tokenAt_iff.mp hb).2] at hread
  obtain ⟨hreference, hlength⟩ := Prod.mk.inj (Option.some_inj.mp hread)
  cases a
  cases b
  simp_all

/-- Leftmost references from a place are determined by the text. -/
private theorem LeftmostFrom.unique {text : List Char} {place : Nat} {a b : List Occurrence}
    (ha : LeftmostFrom text place a) (hb : LeftmostFrom text place b) : a = b := by
  induction a generalizing b place with
  | nil =>
    cases b with
    | nil => rfl
    | cons y b =>
      have hy := List.mem_cons_self (a := y) (l := b)
      obtain ⟨p, hp, -⟩ := ha.complete y (hb.sound y hy) (hb.within y hy)
      cases hp
  | cons x a ih =>
    have hx := List.mem_cons_self (a := x) (l := a)
    cases b with
    | nil =>
      obtain ⟨p, hp, -⟩ := hb.complete x (ha.sound x hx) (ha.within x hx)
      cases hp
    | cons y b =>
      have hy := List.mem_cons_self (a := y) (l := b)
      have hxy := ha.head_le (hb.sound y hy) (hb.within y hy)
      have hyx := hb.head_le (ha.sound x hx) (ha.within x hx)
      obtain rfl := (ha.sound x hx).eq_of_start_eq (hb.sound y hy) (Nat.le_antisymm hxy hyx)
      rw [ih ha.tail hb.tail]

/-- There is one way to choose references from the left. -/
theorem Leftmost.unique {text : List Char} {a b : List Occurrence} (ha : Leftmost text a)
    (hb : Leftmost text b) : a = b := by
  have hfrom : ∀ {found}, Leftmost text found → LeftmostFrom text 0 found := fun h =>
    ⟨h.sound, fun _ _ => Nat.zero_le _, h.apart, fun o ho _ => h.complete o ho⟩
  exact (hfrom ha).unique (hfrom hb)

/-- **What a scan finds is exactly the leftmost tokens**, failed searches remembered or not. -/
theorem leftmost_iff {text : List Char} {found : List Occurrence} :
    Leftmost text found ↔ found = scanOnce text := by
  rw [scanOnce_eq_scan]
  exact ⟨fun h => h.unique (leftmost_scan text), fun h => h ▸ leftmost_scan text⟩

end ShellSurvey.Param
