import Mathlib.Algebra.Group.Nat.Defs
import Mathlib.Data.List.Infix
import ShellSurvey.Text.Utf8

/-!
# The UTF-8 decoder

What the states of the decoder mean, in terms of the encoding alone. `Begun part p` says that the
bytes `part` have been read of a character: they begin exactly the encodings of the characters
that `p` may become, and the next byte is in the range of `p` exactly if it leaves one of them.

* `leads_lead` and `Begun.continues` — what a byte does, by cases: it makes a character whole, it
  leaves one begun, or no encoding goes on with it. The arithmetic is behind these two; whatever is
  said of a run uses nothing else of the decoder.
* `eq_of_isPrefix` — no encoding begins another.
* `decode_encode_append` and `decode_append_encode` — the bytes of a text are read as that text,
  whatever stands behind them or before them.

Why the second law holds: a first byte is never in the range of a character begun, so a character
that is cut off costs one replacement and takes nothing of what follows.
-/

namespace ShellSurvey.Text.Utf8

/-! ### The bytes of a character -/

/-- How many bytes a code point takes. -/
def width (n : Nat) : Nat :=
  if n < 0x80 then 1 else if n < 0x800 then 2 else if n < 0x10000 then 3 else 4

/-- What marks the first byte of a character of that many bytes. -/
def leadMark : Nat → Nat
  | 2 => 0xC0
  | 3 => 0xE0
  | 4 => 0xF0
  | _ => 0

/-- The first byte of a code point. -/
def leadByte (n : Nat) : Nat :=
  leadMark (width n) + n / 64 ^ (width n - 1)

/-- The byte of a code point that has `k` bytes behind it, the first byte apart: six bits. -/
def tailByte (n k : Nat) : Nat :=
  0x80 + n / 64 ^ k % 64

theorem width_eq_two_iff {n : Nat} : width n = 2 ↔ 0x80 ≤ n ∧ n < 0x800 := by
  rw [width]
  split_ifs <;> omega

theorem width_eq_three_iff {n : Nat} : width n = 3 ↔ 0x800 ≤ n ∧ n < 0x10000 := by
  rw [width]
  split_ifs <;> omega

theorem width_eq_four_iff {n : Nat} : width n = 4 ↔ 0x10000 ≤ n := by
  rw [width]
  split_ifs <;> omega

/-- The first byte tells how many there are, and is never one of those that continue. -/
theorem leadByte_cases {n : Nat} (h : n < 0x110000) :
    (leadByte n < 0x80 ∧ width n = 1) ∨
      (0xC2 ≤ leadByte n ∧ leadByte n < 0xE0 ∧ width n = 2) ∨
      (0xE0 ≤ leadByte n ∧ leadByte n < 0xF0 ∧ width n = 3) ∨
      (0xF0 ≤ leadByte n ∧ leadByte n < 0xF5 ∧ width n = 4) := by
  rw [leadByte, width]
  split_ifs <;>
    simp only [leadMark, Nat.reduceSub, Nat.reducePow, Nat.reduceEqDiff, and_true, and_false,
      false_or, or_false] <;>
    omega

theorem toNat_lt (c : Char) : c.toNat < 0x110000 := by
  have h := c.valid
  simp only [UInt32.isValidChar, Nat.isValidChar, Char.toNat_val] at h
  omega

theorem toNat_ofNat {n : Nat} (h : n.isValidChar) : (Char.ofNat n).toNat = n := by
  rw [Char.ofNat, dif_pos h]
  rfl

theorem toUInt8_eq_iff {n : Nat} {b : UInt8} (h : n < 256) : n.toUInt8 = b ↔ n = b.toNat := by
  rw [← UInt8.toNat_inj, Nat.toUInt8, UInt8.toNat_ofNat_of_lt' h]

/-- A character takes as many bytes as its width says. -/
theorem length_encodeChar (c : Char) : (encodeChar c).length = width c.toNat := by
  rw [encodeChar, width]
  split_ifs <;> rfl

theorem head?_encodeChar (c : Char) :
    (encodeChar c).head? = some (leadByte c.toNat).toUInt8 := by
  rw [encodeChar, leadByte, width]
  split_ifs <;> simp [leadMark]

/-- Each of the other bytes carries six bits. -/
theorem getElem?_encodeChar {c : Char} {need : Nat} (h : need + 1 < width c.toNat) :
    (encodeChar c)[width c.toNat - (need + 1)]? = some (tailByte c.toNat need).toUInt8 := by
  revert h
  rw [encodeChar, width, tailByte]
  split_ifs <;> intro h
  · omega
  · obtain rfl : need = 0 := by omega
    simp
  · obtain rfl | rfl : need = 0 ∨ need = 1 := by omega
    · simp
    · simp
  · obtain rfl | rfl | rfl : need = 0 ∨ need = 1 ∨ need = 2 := by omega
    · simp
    · simp
    · simp

/-- A byte begins a character just if it is its lead byte. -/
theorem singleton_isPrefix_iff {b : UInt8} {c : Char} :
    [b] <+: encodeChar c ↔ leadByte c.toNat = b.toNat := by
  have hlt : leadByte c.toNat < 256 := by
    have hcases := leadByte_cases (toNat_lt c)
    omega
  rw [List.singleton_prefix_iff_head?_eq_some, head?_encodeChar, Option.some_inj,
    toUInt8_eq_iff hlt]

theorem concat_isPrefix_iff {α : Type} {part whole : List α} {b : α} :
    part ++ [b] <+: whole ↔ part <+: whole ∧ whole[part.length]? = some b := by
  constructor
  · rintro ⟨rest, rfl⟩
    simp
  · rintro ⟨⟨rest, rfl⟩, hb⟩
    rw [List.getElem?_append_right (Nat.le_refl _), Nat.sub_self, ← List.head?_eq_getElem?] at hb
    rwa [List.prefix_append_right_inj, List.singleton_prefix_iff_head?_eq_some]

/-! ### Characters begun -/

/-- A byte is in the range of a character begun. -/
def Pending.Admits (p : Pending) (n : Nat) : Prop :=
  p.low ≤ n ∧ n ≤ p.high

/-- The bytes `part` have been read of the character `p`. -/
structure Begun (part : List UInt8) (p : Pending) : Prop where
  nonempty : part ≠ []
  need_pos : 0 < p.need
  /-- They begin exactly the characters that `p` may become. -/
  isPrefix_iff : ∀ c : Char, part <+: encodeChar c ↔
    width c.toNat = part.length + p.need ∧ c.toNat / 64 ^ p.need = p.bits
  /-- The next byte is in range if it leads to such a character, and not to a code point that
  is none or that has a shorter encoding. -/
  admits_iff : ∀ n, n / 64 ^ p.need = p.bits →
    (p.Admits (tailByte n (p.need - 1)) ↔ n.isValidChar ∧ width n = part.length + p.need)
  bounds : 0x80 ≤ p.low ∧ p.low ≤ p.high ∧ p.high ≤ 0xBF

/-- A lead byte begins the characters that its bounds for the next byte admit. -/
theorem begun_lead {b : UInt8} {p : Pending} (hpos : 0 < p.need)
    (hb : b.toNat = leadMark (p.need + 1) + p.bits)
    (hwidth : ∀ n < 0x110000, leadByte n = b.toNat → width n = p.need + 1)
    (hrange : ∀ n, n / 64 ^ p.need = p.bits →
      (p.Admits (tailByte n (p.need - 1)) ↔ n.isValidChar ∧ width n = p.need + 1))
    (hbounds : 0x80 ≤ p.low ∧ p.low ≤ p.high ∧ p.high ≤ 0xBF) : Begun [b] p where
  nonempty := List.cons_ne_nil b []
  need_pos := hpos
  isPrefix_iff c := by
    rw [singleton_isPrefix_iff, List.length_singleton, Nat.add_comm 1]
    constructor
    · intro h
      have hc : width c.toNat = p.need + 1 := hwidth _ (toNat_lt c) h
      rw [leadByte, hb, hc, Nat.add_sub_cancel] at h
      exact ⟨hc, Nat.add_left_cancel h⟩
    · rintro ⟨hc, hbits⟩
      rw [leadByte, hb, hc, Nat.add_sub_cancel, hbits]
  admits_iff n hn := by
    rw [List.length_singleton, Nat.add_comm 1]
    exact hrange n hn
  bounds := hbounds

theorem begun_two {b : UInt8} (h : 0xC2 ≤ b.toNat) (h' : b.toNat < 0xE0) :
    Begun [b] ⟨1, 0x80, 0xBF, b.toNat - 0xC0⟩ := by
  refine begun_lead Nat.one_pos ?_ (fun n hn hlead => ?_) (fun n hn => ?_) (by simp)
  · simp only [leadMark]
    omega
  · have hcases := leadByte_cases hn
    simp only [Nat.reduceAdd]
    omega
  · simp only [Nat.reduceAdd, width_eq_two_iff, Nat.isValidChar, Pending.Admits, tailByte] at hn ⊢
    omega

/-- The lead bytes of three begin characters of that width, but no overlong forms or surrogates. -/
theorem begun_three {b : UInt8} {low high : Nat} (h : 0xE0 ≤ b.toNat) (h' : b.toNat < 0xF0)
    (hlow : low = if b.toNat = 0xE0 then 0xA0 else 0x80)
    (hhigh : high = if b.toNat = 0xED then 0x9F else 0xBF) :
    Begun [b] ⟨2, low, high, b.toNat - 0xE0⟩ := by
  refine begun_lead Nat.two_pos ?_ (fun n hn hlead => ?_) (fun n hn => ?_) ?_
  · simp only [leadMark]
    omega
  · have hcases := leadByte_cases hn
    simp only [Nat.reduceAdd]
    omega
  · simp only [Nat.reduceAdd, width_eq_three_iff, Nat.isValidChar, Pending.Admits, tailByte,
      Nat.reducePow, Nat.reduceSub] at hn ⊢
    split_ifs at hlow hhigh <;> omega
  · dsimp only
    split_ifs at hlow hhigh <;> omega

/-- The lead bytes of four begin characters of that width, up to the last code point. -/
theorem begun_four {b : UInt8} {low high : Nat} (h : 0xF0 ≤ b.toNat) (h' : b.toNat < 0xF5)
    (hlow : low = if b.toNat = 0xF0 then 0x90 else 0x80)
    (hhigh : high = if b.toNat = 0xF4 then 0x8F else 0xBF) :
    Begun [b] ⟨3, low, high, b.toNat - 0xF0⟩ := by
  refine begun_lead (Nat.succ_pos 2) ?_ (fun n hn hlead => ?_) (fun n hn => ?_) ?_
  · simp only [leadMark]
    omega
  · have hcases := leadByte_cases hn
    simp only [Nat.reduceAdd]
    omega
  · simp only [Nat.reduceAdd, width_eq_four_iff, Nat.isValidChar, Pending.Admits, tailByte,
      Nat.reducePow, Nat.reduceSub] at hn ⊢
    split_ifs at hlow hhigh <;> omega
  · dsimp only
    split_ifs at hlow hhigh <;> omega

/-- What a byte does where no character is begun. -/
inductive Leads (b : UInt8) : Reading → Prop
  | whole {c : Char} : encodeChar c = [b] → Leads b ([c], none)
  | stray : (∀ c, ¬[b] <+: encodeChar c) → Leads b ([replacement], none)
  | begun {p : Pending} : Begun [b] p → Leads b ([], some p)

/-- The other bytes begin no character. -/
theorem stray_of_toNat {b : UInt8} (h : 0x80 ≤ b.toNat ∧ b.toNat < 0xC2 ∨ 0xF5 ≤ b.toNat)
    (c : Char) : ¬[b] <+: encodeChar c := by
  rw [singleton_isPrefix_iff]
  have hcases := leadByte_cases (toNat_lt c)
  omega

/-- What `lead` does, row by row. -/
theorem leads_lead (b : UInt8) : Leads b (lead b) := by
  rw [lead]
  split
  case isTrue h1 =>
    have hvalue : (Char.ofNat b.toNat).toNat = b.toNat := toNat_ofNat (Or.inl (by omega))
    refine .whole ?_
    rw [encodeChar, hvalue]
    simp [h1]
  split
  case isTrue h1 h2 => exact .stray (stray_of_toNat (.inl ⟨Nat.le_of_not_lt h1, h2⟩))
  split
  case isTrue h2 h3 => exact .begun (begun_two (Nat.le_of_not_lt h2) h3)
  split
  case isTrue h4 =>
    have hbegun := begun_three (Nat.le_of_eq h4.symm) (by omega) rfl rfl
    simp only [h4, Nat.reduceEqDiff, if_true, if_false] at hbegun
    exact .begun hbegun
  split
  case isTrue h4 h5 =>
    exact .begun (begun_three (by omega) (by omega) (by simp [h4]) (by simp [h5]))
  split
  case isTrue h4 h5 h6 => exact .begun (begun_three (by omega) h6 (by simp [h4]) (by simp [h5]))
  split
  case isTrue h7 =>
    have hbegun := begun_four (Nat.le_of_eq h7.symm) (by omega) rfl rfl
    simp only [h7, Nat.reduceEqDiff, if_true, if_false] at hbegun
    exact .begun hbegun
  split
  case isTrue h7 h8 =>
    exact .begun (begun_four (by omega) (by omega) (by simp [h7]) (by rw [if_neg (by omega)]))
  split
  case isTrue h7 h8 h9 =>
    exact .begun (begun_four (by omega) (by omega) (by simp [h7]) (by simp [h9]))
  case isFalse => exact .stray (stray_of_toNat (.inr (by omega)))

/-- What a byte does to a character begun. -/
inductive Continues (part : List UInt8) (b : UInt8) : Reading → Prop
  | whole {c : Char} : encodeChar c = part ++ [b] → Continues part b ([c], none)
  | begun {p : Pending} : Begun (part ++ [b]) p → Continues part b ([], some p)
  | refused : (∀ c, ¬part ++ [b] <+: encodeChar c) →
      Continues part b (replacement :: (lead b).1, (lead b).2)

/-- One byte more begins a character just if it is the next one of it. -/
theorem Begun.concat_isPrefix_iff {part : List UInt8} {p : Pending} {need : Nat}
    (h : Begun part p) (hneed : p.need = need + 1) {b : UInt8} {c : Char} :
    part ++ [b] <+: encodeChar c ↔
      part <+: encodeChar c ∧ tailByte c.toNat need = b.toNat := by
  rw [Utf8.concat_isPrefix_iff]
  refine and_congr_right fun hpart => ?_
  obtain ⟨hwidth, -⟩ := (h.isPrefix_iff c).mp hpart
  have hlength : part.length = width c.toNat - (need + 1) := by omega
  have hpos : 0 < part.length := List.length_pos_of_ne_nil h.nonempty
  have hlt : tailByte c.toNat need < 256 := by
    rw [tailByte]
    omega
  rw [hlength, getElem?_encodeChar (by omega), Option.some_inj, toUInt8_eq_iff hlt]

theorem div_pow_succ (n k : Nat) : n / 64 ^ (k + 1) = n / 64 ^ k / 64 := by
  rw [Nat.pow_succ, Nat.div_div_eq_div_mul]

section Begun

variable {part : List UInt8} {p : Pending} (h : Begun part p)
include h

/-- The bounds admit the bytes of valid characters only. -/
theorem Begun.admits_tailByte_iff {need n : Nat} (hneed : p.need = need + 1)
    (hbits : n / 64 ^ p.need = p.bits) :
    p.Admits (tailByte n need) ↔ n.isValidChar ∧ width n = part.length + p.need := by
  have hrange := h.admits_iff n hbits
  rwa [hneed, Nat.add_sub_cancel, ← hneed] at hrange

/-- The last byte completes the code point. -/
theorem Begun.whole {b : UInt8} {bits : Nat} (hneed : p.need = 1) (hrange : p.Admits b.toNat)
    (hbits : bits / 64 = p.bits) (hb : 0x80 + bits % 64 = b.toNat) :
    encodeChar (Char.ofNat bits) = part ++ [b] := by
  have hbits : bits / 64 ^ p.need = p.bits := by
    rw [hneed, Nat.pow_one, hbits]
  have hb : tailByte bits 0 = b.toNat := by
    rw [tailByte, Nat.pow_zero, Nat.div_one, hb]
  rw [← hb, h.admits_tailByte_iff hneed hbits] at hrange
  obtain ⟨hvalid, hwidth⟩ := hrange
  have hwhole : part ++ [b] <+: encodeChar (Char.ofNat bits) := by
    rw [h.concat_isPrefix_iff hneed, h.isPrefix_iff, toNat_ofNat hvalid]
    exact ⟨⟨hwidth, hbits⟩, hb⟩
  refine (hwhole.eq_of_length ?_).symm
  rw [length_encodeChar, toNat_ofNat hvalid, hwidth, hneed, List.length_append,
    List.length_singleton]

/-- With more bytes to come, the code point stays valid whatever they are. -/
theorem Begun.next {b : UInt8} {bits need : Nat} (hneed : p.need = need + 2)
    (hrange : p.Admits b.toNat) (hbits : bits / 64 = p.bits) (hb : 0x80 + bits % 64 = b.toNat) :
    Begun (part ++ [b]) ⟨need + 1, 0x80, 0xBF, bits⟩ where
  nonempty := by simp
  need_pos := Nat.succ_pos need
  isPrefix_iff c := by
    rw [h.concat_isPrefix_iff hneed, h.isPrefix_iff, hneed, div_pow_succ, tailByte,
      List.length_append, List.length_singleton]
    dsimp only
    omega
  admits_iff n hn := by
    have hn : n / 64 ^ (need + 1) = bits := hn
    have hold : n / 64 ^ p.need = p.bits := by
      rw [hneed, div_pow_succ, hn, hbits]
    have hbyte : tailByte n (need + 1) = b.toNat := by
      rw [tailByte, hn, hb]
    rw [← hbyte, h.admits_tailByte_iff hneed hold] at hrange
    obtain ⟨hvalid, hwidth⟩ := hrange
    refine iff_of_true ?_ ⟨hvalid, ?_⟩
    · dsimp only [Pending.Admits, tailByte]
      omega
    · rw [hwidth, hneed, List.length_append, List.length_singleton]
      dsimp only
      omega
  bounds := by simp

/-- A byte in range makes the character whole or leaves it begun; with any other one no character
goes on. -/
theorem Begun.continues (b : UInt8) : Continues part b (step (some p) b) := by
  obtain ⟨hlow, -, hhigh⟩ := h.bounds
  rw [step]
  dsimp only
  split_ifs with hrange hlast
  · have hneed : p.need = 1 := Nat.le_antisymm hlast h.need_pos
    exact .whole (h.whole hneed hrange (by omega) (by omega))
  · obtain ⟨need, hneed⟩ : ∃ need, p.need = need + 2 := Nat.exists_eq_add_of_le' (by omega)
    rw [hneed]
    exact .begun (h.next hneed hrange (by omega) (by omega))
  · obtain ⟨need, hneed⟩ : ∃ need, p.need = need + 1 := Nat.exists_eq_add_one.mpr h.need_pos
    refine .refused fun c hc => hrange ?_
    obtain ⟨hpart, hb⟩ := (h.concat_isPrefix_iff hneed).mp hc
    obtain ⟨hwidth, hbits⟩ := (h.isPrefix_iff c).mp hpart
    exact hb ▸ (h.admits_tailByte_iff hneed hbits).mpr ⟨c.valid, hwidth⟩

/-- What is begun can be completed. -/
theorem Begun.exists_char : ∃ c, part <+: encodeChar c := by
  obtain ⟨need, hneed⟩ : ∃ need, p.need = need + 1 := Nat.exists_eq_add_one.mpr h.need_pos
  obtain ⟨hlow, hle, hhigh⟩ := h.bounds
  -- the least byte in range, and zeros behind it
  obtain ⟨n, hbits, hbyte⟩ :
      ∃ n, n / 64 ^ p.need = p.bits ∧ tailByte n need = p.low := by
    refine ⟨(p.bits * 64 + (p.low - 0x80)) * 64 ^ need, ?_⟩
    rw [hneed, div_pow_succ, tailByte, Nat.mul_div_cancel _ (Nat.pow_pos (by decide))]
    omega
  have hrange := h.admits_tailByte_iff hneed hbits
  rw [hbyte] at hrange
  obtain ⟨hvalid, hwidth⟩ := hrange.mp ⟨Nat.le_refl _, hle⟩
  refine ⟨Char.ofNat n, (h.isPrefix_iff _).mpr ?_⟩
  rw [toNat_ofNat hvalid]
  exact ⟨hwidth, hbits⟩

end Begun

/-! ### No encoding begins another -/

/-- The encoding is the usual one. -/
theorem encodeChar_eq_utf8EncodeChar (c : Char) : encodeChar c = String.utf8EncodeChar c := by
  have hlt := toNat_lt c
  rw [encodeChar, String.utf8EncodeChar, Char.toNat_val]
  generalize c.toNat = n at hlt ⊢
  simp only [Nat.toUInt8, ← Nat.lt_add_one_iff, Nat.reduceAdd]
  split_ifs
  · rfl
  · simp only [List.cons.injEq, and_true]
    refine ⟨congrArg UInt8.ofNat ?_, congrArg UInt8.ofNat ?_⟩ <;> omega
  · simp only [List.cons.injEq, and_true]
    refine ⟨congrArg UInt8.ofNat ?_, congrArg UInt8.ofNat ?_, congrArg UInt8.ofNat ?_⟩ <;> omega
  · simp only [List.cons.injEq, and_true]
    refine ⟨congrArg UInt8.ofNat ?_, congrArg UInt8.ofNat ?_, congrArg UInt8.ofNat ?_,
      congrArg UInt8.ofNat ?_⟩ <;> omega

/-- No character begins the encoding of another one. -/
theorem eq_of_isPrefix {c d : Char} (h : encodeChar c <+: encodeChar d) : c = d := by
  obtain ⟨rest, hrest⟩ := h
  rw [encodeChar_eq_utf8EncodeChar, encodeChar_eq_utf8EncodeChar] at hrest
  -- the first character of the bytes of `d` would be `c` as well
  have hc := ByteArray.utf8DecodeChar?_utf8EncodeChar_append (b := rest.toByteArray) (c := c)
  have hd := ByteArray.utf8DecodeChar?_utf8EncodeChar_append (b := ByteArray.empty) (c := d)
  rw [← List.toByteArray_append, hrest] at hc
  rw [ByteArray.append_empty, hc] at hd
  exact Option.some_inj.mp hd

/-! ### Runs of the decoder -/

theorem foldl_advance (bytes : List UInt8) (state : Option Pending) (done : List Char) :
    bytes.foldl advance (state, done) =
      ((bytes.foldl advance (state, [])).1, (bytes.foldl advance (state, [])).2 ++ done) := by
  induction bytes generalizing state done with
  | nil => rfl
  | cons b rest ih =>
    rw [List.foldl_cons, List.foldl_cons, advance, advance, ih, List.append_nil,
      ih _ (step state b).1.reverse, List.append_assoc]

theorem decodeFrom_nil (state : Option Pending) : decodeFrom state [] = finish state := by
  cases state <;> rfl

theorem decodeFrom_cons (state : Option Pending) (b : UInt8) (rest : List UInt8) :
    decodeFrom state (b :: rest) = (step state b).1 ++ decodeFrom (step state b).2 rest := by
  rw [decodeFrom, List.foldl_cons, advance, List.append_nil, foldl_advance, decodeFrom]
  simp

/-- The bytes that a state of the decoder holds back. -/
inductive Holds : List UInt8 → Option Pending → Prop
  | between : Holds [] none
  | begun {part : List UInt8} {p : Pending} : Begun part p → Holds part (some p)

theorem holds_step {part : List UInt8} {state : Option Pending} (h : Holds part state) (b : UInt8) :
    ∃ part', Holds part' (step state b).2 := by
  have hlead : ∃ part', Holds part' (lead b).2 := by
    have hlead := leads_lead b
    generalize lead b = reading at hlead ⊢
    cases hlead with
    | whole _ => exact ⟨[], .between⟩
    | stray _ => exact ⟨[], .between⟩
    | begun hp => exact ⟨[b], .begun hp⟩
  cases h with
  | between => exact hlead
  | begun hp =>
    have hstep := hp.continues b
    generalize step _ b = reading at hstep ⊢
    cases hstep with
    | whole _ => exact ⟨[], .between⟩
    | begun hp => exact ⟨part ++ [b], .begun hp⟩
    | refused _ => exact hlead

theorem encodeChar_ne_nil (c : Char) : encodeChar c ≠ [] := by
  have hhead := head?_encodeChar c
  intro h
  rw [h] at hhead
  cases hhead

/-- A character begun is read to its end. -/
theorem decodeFrom_tail {part tail : List UInt8} {p : Pending} {c : Char} (h : Begun part p)
    (hc : encodeChar c = part ++ tail) (rest : List UInt8) :
    decodeFrom (some p) (tail ++ rest) = c :: decode rest := by
  induction tail generalizing part p with
  | nil =>
    -- a character begun lacks at least one byte
    rw [List.append_nil] at hc
    have hwidth := ((h.isPrefix_iff c).mp (hc ▸ List.prefix_refl part)).1
    rw [← length_encodeChar, hc] at hwidth
    have hpos := h.need_pos
    omega
  | cons b tail ih =>
    rw [List.append_cons] at hc
    have hpart : part ++ [b] <+: encodeChar c := ⟨tail, hc.symm⟩
    rw [List.cons_append, decodeFrom_cons]
    have hstep := h.continues b
    generalize step (some p) b = reading at hstep ⊢
    cases hstep with
    | whole hd =>
      obtain rfl := eq_of_isPrefix (hd ▸ hpart)
      obtain rfl : tail = [] := by simpa [hd] using hc
      rfl
    | begun hp => exact ih hp hc
    | refused hnot => exact absurd hpart (hnot c)

/-- An encoded character is decoded, whatever is behind it. -/
theorem decode_encodeChar_append (c : Char) (rest : List UInt8) :
    decode (encodeChar c ++ rest) = c :: decode rest := by
  obtain ⟨b, tail, hc⟩ := List.exists_cons_of_ne_nil (encodeChar_ne_nil c)
  have hb : [b] <+: encodeChar c := ⟨tail, hc.symm⟩
  rw [hc, List.cons_append, decode, decodeFrom_cons, step]
  have hlead := leads_lead b
  generalize lead b = reading at hlead ⊢
  cases hlead with
  | whole hd =>
    obtain rfl := eq_of_isPrefix (hd ▸ hb)
    obtain rfl : tail = [] := by simpa [hd] using hc
    rfl
  | stray hnot => exact absurd hb (hnot c)
  | begun hp => exact decodeFrom_tail hp hc rest

theorem encode_cons (c : Char) (s : List Char) : encode (c :: s) = encodeChar c ++ encode s := rfl

theorem encode_append (s t : List Char) : encode (s ++ t) = encode s ++ encode t :=
  List.flatMap_append

/-- An encoded text is decoded, whatever is behind it. -/
theorem decode_encode_append (s : List Char) (rest : List UInt8) :
    decode (encode s ++ rest) = s ++ decode rest := by
  induction s with
  | nil => rfl
  | cons c s ih =>
    rw [encode_cons, List.append_assoc, decode_encodeChar_append, ih, List.cons_append]

/-- Decoding undoes encoding. -/
theorem decode_encode (s : List Char) : decode (encode s) = s := by
  simpa [decode, decodeFrom_nil, finish] using decode_encode_append s []

/-- A byte with which no character goes on ends it as ill formed, and is read anew. -/
theorem Begun.decodeFrom_refused {part : List UInt8} {p : Pending} (h : Begun part p) {b : UInt8}
    (hb : ∀ c, ¬part ++ [b] <+: encodeChar c) (rest : List UInt8) :
    decodeFrom (some p) (b :: rest) = replacement :: decode (b :: rest) := by
  rw [decode, decodeFrom_cons, decodeFrom_cons none, step.eq_def none]
  have hstep := h.continues b
  generalize step (some p) b = reading at hstep ⊢
  cases hstep with
  | whole hc => exact absurd ⟨[], by rw [List.append_nil, hc]⟩ (hb _)
  | begun hp =>
    obtain ⟨c, hc⟩ := hp.exists_char
    exact absurd hc (hb c)
  | refused => rfl

/-- A first byte continues nothing. -/
theorem Begun.not_isPrefix_lead {part : List UInt8} {p : Pending} (h : Begun part p) {b : UInt8}
    {d : Char} (hd : [b] <+: encodeChar d) (c : Char) : ¬part ++ [b] <+: encodeChar c := by
  obtain ⟨need, hneed⟩ : ∃ need, p.need = need + 1 := Nat.exists_eq_add_one.mpr h.need_pos
  rw [h.concat_isPrefix_iff hneed]
  rintro ⟨-, hb⟩
  rw [tailByte] at hb
  have hlead := singleton_isPrefix_iff.mp hd
  have hcases := leadByte_cases (toNat_lt d)
  omega

/-- A character is read where it stands, whatever is before it. -/
theorem decodeFrom_append_encodeChar {part : List UInt8} {state : Option Pending}
    (h : Holds part state) (bytes : List UInt8) (c : Char) (rest : List UInt8) :
    decodeFrom state (bytes ++ (encodeChar c ++ rest)) =
      decodeFrom state bytes ++ c :: decode rest := by
  induction bytes generalizing part state with
  | nil =>
    cases h with
    | between => exact decode_encodeChar_append c rest
    | begun hp =>
      -- the character cuts the one begun off, and is read from its first byte on
      obtain ⟨b, tail, hc⟩ := List.exists_cons_of_ne_nil (encodeChar_ne_nil c)
      have hlead : [b] <+: encodeChar c := ⟨tail, hc.symm⟩
      have hsplit : encodeChar c ++ rest = b :: (tail ++ rest) := by rw [hc, List.cons_append]
      rw [List.nil_append, hsplit, hp.decodeFrom_refused (hp.not_isPrefix_lead hlead), ← hsplit,
        decode_encodeChar_append, decodeFrom_nil]
      rfl
  | cons b bytes ih =>
    obtain ⟨part', hstep⟩ := holds_step h b
    rw [List.cons_append, decodeFrom_cons, decodeFrom_cons, ih hstep, List.append_assoc]

/-- An encoded text is decoded, whatever is held of a character before it. -/
theorem decodeFrom_append_encode {part : List UInt8} {state : Option Pending}
    (h : Holds part state) (bytes : List UInt8) (s : List Char) :
    decodeFrom state (bytes ++ encode s) = decodeFrom state bytes ++ s := by
  cases s with
  | nil => simp [encode]
  | cons c s => rw [encode_cons, decodeFrom_append_encodeChar h, decode_encode]

theorem decode_append_encode (bytes : List UInt8) (s : List Char) :
    decode (bytes ++ encode s) = decode bytes ++ s :=
  decodeFrom_append_encode .between bytes s

end ShellSurvey.Text.Utf8
