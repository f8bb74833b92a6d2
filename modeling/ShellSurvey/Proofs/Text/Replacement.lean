import ShellSurvey.Proofs.Text.Utf8
import ShellSurvey.Tree.Node

/-!
# Replacement of ill-formed bytes

The rule by which bytes that are no text are read, without the decoder: where no encoding stands,
the longest part that an encoding might still have begun with, and at least one byte, gives one
replacement character. `Decodes` is that rule. Every byte string has exactly one reading
(`Decodes.unique`), and the decoder finds it (`decodes_iff`).

With the two laws of concatenation this gives what a survey relies on when it cuts the text of a
node out of the bytes of a script (`decode_faithful`).
-/

namespace ShellSurvey.Text.Utf8

/-! ### The rule of replacement -/

/-- An ill-formed part of a byte string, as long as it can be, and what follows it. -/
structure MaximalSubpart (part rest : List UInt8) : Prop where
  nonempty : part ≠ []
  /-- No character stands here. -/
  unconvertible : ∀ c, ¬encodeChar c <+: part ++ rest
  /-- A character might have begun so, unless the part is a single byte. -/
  subpart : part.length = 1 ∨ ∃ c, part <+: encodeChar c
  /-- No character begins with more of the bytes. -/
  longest : ∀ c longer, longer <+: part ++ rest → longer <+: encodeChar c →
    longer.length ≤ part.length

/-- The characters of a byte string: one for each encoding, and a replacement for each maximal
ill-formed part. -/
inductive Decodes : List UInt8 → List Char → Prop
  | nil : Decodes [] []
  | char (c : Char) {rest : List UInt8} {cs : List Char} :
      Decodes rest cs → Decodes (encodeChar c ++ rest) (c :: cs)
  | illFormed {part rest : List UInt8} {cs : List Char} :
      MaximalSubpart part rest → Decodes rest cs → Decodes (part ++ rest) (replacement :: cs)

/-- What reaches beyond `part` reaches at least to the next byte. -/
theorem exists_concat_isPrefix {part rest longer : List UInt8} (h : longer <+: part ++ rest)
    (hlt : part.length < longer.length) : ∃ b ∈ rest.head?, part ++ [b] <+: longer := by
  obtain ⟨more, rfl⟩ : part <+: longer :=
    List.prefix_of_prefix_length_le (List.prefix_append part rest) h (Nat.le_of_lt hlt)
  rw [List.prefix_append_right_inj] at h
  cases more with
  | nil => simp at hlt
  | cons b more =>
    obtain ⟨tail, rfl⟩ := h
    exact ⟨b, rfl, more, by simp⟩

/-- A character begun that does not go on is a maximal ill-formed part. -/
theorem Begun.maximalSubpart {part rest : List UInt8} {p : Pending} (h : Begun part p)
    (hrest : ∀ b ∈ rest.head?, ∀ c, ¬part ++ [b] <+: encodeChar c) : MaximalSubpart part rest := by
  obtain ⟨d, hd⟩ := h.exists_char
  have hlongest : ∀ c longer, longer <+: part ++ rest → longer <+: encodeChar c →
      longer.length ≤ part.length := by
    intro c longer hlonger hc
    by_contra hlt
    obtain ⟨b, hb, hpart⟩ := exists_concat_isPrefix hlonger (Nat.lt_of_not_le hlt)
    exact hrest b hb c (hpart.trans hc)
  refine ⟨h.nonempty, fun c hc => ?_, .inr ⟨d, hd⟩, hlongest⟩
  -- an encoding within `part` would begin the longer one of `d`
  have hle := hlongest c _ hc (List.prefix_refl _)
  have hcd : encodeChar c <+: encodeChar d :=
    (List.prefix_of_prefix_length_le hc (List.prefix_append part rest) hle).trans hd
  obtain rfl := eq_of_isPrefix hcd
  have hwidth := ((h.isPrefix_iff c).mp hd).1
  rw [length_encodeChar] at hle
  have hpos := h.need_pos
  omega

/-- A byte that begins no character is replaced alone. -/
theorem maximalSubpart_stray {b : UInt8} (h : ∀ c, ¬[b] <+: encodeChar c) (rest : List UInt8) :
    MaximalSubpart [b] rest := by
  have hlead : ∀ c longer, longer ≠ [] → longer <+: [b] ++ rest → ¬longer <+: encodeChar c := by
    rintro c longer hne hlonger hc
    obtain ⟨d, more, rfl⟩ := List.exists_cons_of_ne_nil hne
    obtain rfl : d = b := (List.cons_prefix_cons.mp hlonger).1
    exact h c (List.IsPrefix.trans ⟨more, rfl⟩ hc)
  refine ⟨List.cons_ne_nil b [], fun c hc => ?_, .inl rfl, fun c longer hlonger hc => ?_⟩
  · exact hlead c _ (encodeChar_ne_nil c) hc (List.prefix_refl _)
  · by_contra hlt
    refine hlead c longer ?_ hlonger hc
    rintro rfl
    exact hlt (Nat.zero_le _)

/-- Decoding goes on from what it holds of a character. -/
theorem decodes_decodeFrom {part : List UInt8} {state : Option Pending} (h : Holds part state)
    (bytes : List UInt8) : Decodes (part ++ bytes) (decodeFrom state bytes) := by
  -- on the bytes to come; `part` is what the state holds back of those that were read
  induction bytes generalizing part state with
  | nil =>
    rw [decodeFrom_nil]
    cases h with
    | between => exact .nil
    | begun hp => exact .illFormed (hp.maximalSubpart (by simp)) .nil
  | cons b bytes ih =>
    have hlead : Decodes (b :: bytes) (decode (b :: bytes)) := by
      rw [decode, decodeFrom_cons, step]
      have hlead := leads_lead b
      generalize lead b = reading at hlead ⊢
      cases hlead with
      | @whole c hc =>
        have hchar := Decodes.char c (ih .between)
        rwa [hc] at hchar
      | stray hb => exact .illFormed (maximalSubpart_stray hb bytes) (ih .between)
      | begun hp => exact ih (.begun hp)
    cases h with
    | between => exact hlead
    | @begun part p hp =>
      -- `b` either ends the character begun, and is read anew, or some character goes on with it
      by_cases hb : ∀ c, ¬part ++ [b] <+: encodeChar c
      · rw [hp.decodeFrom_refused hb]
        exact .illFormed (hp.maximalSubpart (by simpa using hb)) hlead
      · rw [decodeFrom_cons, List.append_cons]
        have hstep := hp.continues b
        generalize step (some p) b = reading at hstep ⊢
        cases hstep with
        | @whole c hc =>
          rw [← hc]
          exact .char c (ih .between)
        | begun hp => exact ih (.begun hp)
        | refused hnot => exact absurd hnot hb

/-- No longer part of a text can be a maximal one. -/
theorem MaximalSubpart.length_le {part rest part' rest' : List UInt8} (h : MaximalSubpart part rest)
    (h' : MaximalSubpart part' rest') (heq : part' ++ rest' = part ++ rest) :
    part'.length ≤ part.length := by
  rcases h'.subpart with hone | ⟨c, hc⟩
  · rw [hone]
    exact List.length_pos_of_ne_nil h.nonempty
  · exact h.longest c part' ⟨rest', heq⟩ hc

/-- The decoded text is determined by the rule of maximal parts. -/
theorem Decodes.unique {bytes : List UInt8} {cs cs' : List Char} (h : Decodes bytes cs)
    (h' : Decodes bytes cs') : cs = cs' := by
  induction h generalizing cs' with
  | nil =>
    generalize hbytes : ([] : List UInt8) = bytes at h'
    cases h' with
    | nil => rfl
    | char c _ => exact absurd (List.append_eq_nil_iff.mp hbytes.symm).1 (encodeChar_ne_nil c)
    | illFormed hpart _ => exact absurd (List.append_eq_nil_iff.mp hbytes.symm).1 hpart.nonempty
  | @char c rest cs _ ih =>
    generalize hbytes : encodeChar c ++ rest = bytes at h'
    cases h' with
    | nil => exact absurd (List.append_eq_nil_iff.mp hbytes).1 (encodeChar_ne_nil c)
    | @char d rest' cs' hrest =>
      obtain rfl : c = d := by
        rcases List.prefix_or_prefix_of_prefix ⟨rest, hbytes⟩ ⟨rest', rfl⟩ with hcd | hdc
        · exact eq_of_isPrefix hcd
        · exact (eq_of_isPrefix hdc).symm
      rw [ih (List.append_cancel_left hbytes ▸ hrest)]
    | illFormed hpart _ => exact absurd ⟨rest, hbytes⟩ (hpart.unconvertible c)
  | @illFormed part rest cs hpart _ ih =>
    generalize hbytes : part ++ rest = bytes at h'
    cases h' with
    | nil => exact absurd (List.append_eq_nil_iff.mp hbytes).1 hpart.nonempty
    | @char d rest' cs' _ => exact absurd ⟨rest', hbytes.symm⟩ (hpart.unconvertible d)
    | @illFormed part' rest' cs' hpart' hrest =>
      have hlength : part.length = part'.length :=
        Nat.le_antisymm (hpart'.length_le hpart hbytes) (hpart.length_le hpart' hbytes.symm)
      obtain ⟨rfl, rfl⟩ := List.append_inj hbytes hlength
      rw [ih hrest]

/-- The decoder follows the rule of replacement. -/
theorem decodes_iff {bytes : List UInt8} {cs : List Char} :
    Decodes bytes cs ↔ decode bytes = cs := by
  have hdecode : Decodes bytes (decode bytes) := decodes_decodeFrom .between bytes
  exact ⟨fun h => hdecode.unique h, fun h => h ▸ hdecode⟩

/-! ### Parts of a text -/

theorem encode_take {s : List Char} {i j : Nat} (h : i ≤ j) :
    encode (s.take j) = encode (s.take i) ++ encode ((s.take j).drop i) := by
  calc encode (s.take j) = encode ((s.take j).take i ++ (s.take j).drop i) := by
        rw [List.take_append_drop]
    _ = encode (s.take i) ++ encode ((s.take j).drop i) := by
        rw [encode_append, List.take_take, Nat.min_eq_left h]

/-- The bytes between two characters are those of the characters between them. -/
theorem slice_encode (s : List Char) (i j : Nat) :
    slice (encode s) (encode (s.take i)).length (encode (s.take j)).length =
      encode ((s.take j).drop i) := by
  rcases Nat.le_total i j with hij | hji
  · have hsplit : encode s =
        encode (s.take i) ++ (encode ((s.take j).drop i) ++ encode (s.drop j)) := by
      rw [← List.append_assoc, ← encode_take hij, ← encode_append, List.take_append_drop]
    rw [slice, encode_take hij, List.length_append, Nat.add_sub_cancel_left]
    nth_rewrite 1 [hsplit]
    rw [List.drop_left, List.take_left]
  · have hlength : (encode (s.take j)).length ≤ (encode (s.take i)).length := by
      rw [encode_take hji, List.length_append]
      exact Nat.le_add_right _ _
    rw [slice, Nat.sub_eq_zero_of_le hlength, List.take_zero, List.drop_eq_nil_of_le]
    · rfl
    · exact (List.length_take_le j s).trans hji

theorem toByteArray_encode (s : List Char) :
    (encode s).toByteArray = (String.ofList s).toByteArray := by
  rw [String.toByteArray_ofList, List.utf8Encode, encode, funext encodeChar_eq_utf8EncodeChar]

/-- **Texts survive the way through bytes, and ill-formed bytes stay where they are.** The bytes
of a text are its UTF-8 encoding, and reading follows the rule of replacement; what is read before
or behind the bytes of a text does not depend on it; the text of a node that starts and ends
between characters is the characters between its ends; and a text that was read from any bytes is
read again from its own. -/
theorem decode_faithful (s : List Char) (bytes : List UInt8) :
    (encode s).toByteArray = (String.ofList s).toByteArray ∧
      (∀ cs, Decodes bytes cs ↔ decode bytes = cs) ∧
      decode (encode s ++ bytes) = s ++ decode bytes ∧
      decode (bytes ++ encode s) = decode bytes ++ s ∧
      decode (encode s) = s ∧
      (∀ (node : Node) (i j : Nat), node.span.startByte = (encode (s.take i)).length →
        node.span.endByte = (encode (s.take j)).length →
        node.text (encode s) = (s.take j).drop i) ∧
      decode (encode (decode bytes)) = decode bytes := by
  refine ⟨toByteArray_encode s, fun _ => decodes_iff, decode_encode_append s bytes,
    decode_append_encode bytes s, decode_encode s, fun node i j hstart hend => ?_,
    decode_encode (decode bytes)⟩
  rw [Node.text, Span.text, hstart, hend, slice_encode, decode_encode]

/-- The accented word in a script, behind a name and before a sign that takes three bytes. -/
theorem text_of_accented :
    Node.text (encode "echo héllo ✓".toList)
        ⟨"word", true, false, none, ⟨5, 11, ⟨0, 5⟩, ⟨0, 11⟩⟩, []⟩ = "héllo".toList :=
  (decode_faithful "echo héllo ✓".toList []).2.2.2.2.2.1
    ⟨"word", true, false, none, ⟨5, 11, ⟨0, 5⟩, ⟨0, 11⟩⟩, []⟩ 5 10 (by decide) (by decide)

end ShellSurvey.Text.Utf8
