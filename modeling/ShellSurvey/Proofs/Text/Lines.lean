import ShellSurvey.Proofs.Text.Replacement
import ShellSurvey.Proofs.Text.Split

/-!
# Lines of bytes and lines of text

A character of one byte, such as a line feed, is never part of another one. So bytes may be cut at
it before or after they are read: the pieces are the same (`splitWhere_decode`), whether or not
they are well formed, and so is the first of them (`takeWhile_decode`).
-/

namespace ShellSurvey.Text.Utf8

variable {b : UInt8} {c : Char}

/-- A character of one byte separates what is decoded before it from what is behind. -/
theorem decode_append_byte (h : encodeChar c = [b]) (bytes rest : List UInt8) :
    decode (bytes ++ b :: rest) = decode bytes ++ c :: decode rest := by
  have hread := decodeFrom_append_encodeChar .between bytes c rest
  rwa [h, List.singleton_append] at hread

/-- A character that was read and is no replacement stands among the bytes. -/
theorem Decodes.isInfix_of_mem {bytes : List UInt8} {cs : List Char} (h : Decodes bytes cs)
    (hmem : c ∈ cs) (hc : c ≠ replacement) : encodeChar c <:+: bytes := by
  induction h with
  | nil => cases hmem
  | @char d rest cs _ ih =>
    rcases List.mem_cons.mp hmem with rfl | hmem
    · exact ⟨[], rest, rfl⟩
    · exact (ih hmem).trans (List.suffix_append (encodeChar d) rest).isInfix
  | @illFormed part rest cs _ _ ih =>
    rcases List.mem_cons.mp hmem with heq | hmem
    · exact absurd heq hc
    · exact (ih hmem).trans (List.suffix_append part rest).isInfix

theorem ne_replacement (h : encodeChar c = [b]) : c ≠ replacement := by
  rintro rfl
  have hlength : (encodeChar replacement).length = 1 := by rw [h, List.length_singleton]
  exact absurd hlength (by decide)

/-- A character of one byte comes from that byte only. -/
theorem notMem_decode (h : encodeChar c = [b]) {bytes : List UInt8} (hb : b ∉ bytes) :
    c ∉ decode bytes := by
  intro hmem
  have hdecodes : Decodes bytes (decode bytes) := decodes_iff.mpr rfl
  have hwithin := hdecodes.isInfix_of_mem hmem (ne_replacement h)
  rw [h] at hwithin
  exact hb (hwithin.subset List.mem_cons_self)

/-- **Bytes may be cut before or after they are read.** -/
theorem splitWhere_decode (h : encodeChar c = [b]) (bytes : List UInt8) :
    splitWhere (· == c) (decode bytes) = (splitWhere (· == b) bytes).map decode := by
  -- on the length: a cut leaves two shorter byte strings
  induction hlength : bytes.length using Nat.strongRecOn generalizing bytes with
  | _ n ih =>
    by_cases hb : b ∈ bytes
    · obtain ⟨front, rest, rfl⟩ := List.append_of_mem hb
      have hcut : splitWhere (· == b) (front ++ b :: rest) =
          splitWhere (· == b) front ++ splitWhere (· == b) rest :=
        splitWhere_append_sep (by simp) front rest
      have hread : splitWhere (· == c) (decode front ++ c :: decode rest) =
          splitWhere (· == c) (decode front) ++ splitWhere (· == c) (decode rest) :=
        splitWhere_append_sep (by simp) (decode front) (decode rest)
      simp only [List.length_append, List.length_cons] at hlength
      rw [decode_append_byte h, hread, hcut, List.map_append,
        ih front.length (by omega) front rfl, ih rest.length (by omega) rest rfl]
    · rw [splitWhere_of_notMem hb, splitWhere_of_notMem (notMem_decode h hb)]
      rfl

/-- The first line of the text is read from the bytes up to the first line feed. -/
theorem takeWhile_decode (h : encodeChar c = [b]) (bytes : List UInt8) :
    (decode bytes).takeWhile (fun x => !(x == c)) =
      decode (bytes.takeWhile fun x => !(x == b)) := by
  obtain ⟨others, htext⟩ := exists_splitWhere_eq (· == c) (decode bytes)
  obtain ⟨rest, hbytes⟩ := exists_splitWhere_eq (· == b) bytes
  have hcut := splitWhere_decode h bytes
  rw [htext, hbytes, List.map_cons] at hcut
  exact (List.cons.inj hcut).1

end ShellSurvey.Text.Utf8
