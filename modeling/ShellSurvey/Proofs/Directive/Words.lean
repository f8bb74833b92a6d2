import Mathlib.Data.List.TakeWhile
import ShellSurvey.Directive
import ShellSurvey.Proofs.Text.Unquote

/-!
# Words and gaps

How the text behind a keyword falls into words, said without reading it step by step.

* `Gap` — blanks and continued lines; `NoGap` — a text that no gap opens;
* `Word` — a maximal run of characters that end no word;
* `Item` — the next word of a list of names, with what stands behind it;
* `Lists` — the words of the list at the front of a text;
* `mem_names_iff` — the list of names is read as `Lists` says, provided that the text starts where
  a word ends (`Boundary`).

At a boundary the list goes on behind a gap or ends: whatever ends a word and is no blank ends the
directive too (`endsDirective_of_endsWord`). So a list never stops for want of a gap.
-/

namespace ShellSurvey.Directive

/-! ### Gaps -/

/-- Blanks and continued lines. -/
inductive Gap : List Char → Prop
  | nil : Gap []
  | space {gap : List Char} : Gap gap → Gap (' ' :: gap)
  | tab {gap : List Char} : Gap gap → Gap ('\t' :: gap)
  | continued {gap : List Char} : Gap gap → Gap ('\\' :: '\n' :: gap)

/-- No gap stands at the front of a text. -/
def NoGap (text : List Char) : Prop :=
  ∀ gap rest, Gap gap → text = gap ++ rest → gap = []

theorem dropGap_append {gap : List Char} (h : Gap gap) (rest : List Char) :
    dropGap (gap ++ rest) = dropGap rest := by
  induction h with
  | nil => rfl
  | space _ ih => exact ih
  | tab _ ih => exact ih
  | continued _ ih => exact ih

/-- A text is a gap and what stands behind it. -/
theorem exists_gap (text : List Char) : ∃ gap, Gap gap ∧ text = gap ++ dropGap text := by
  fun_induction dropGap text with
  | case1 rest ih =>
    obtain ⟨gap, hgap, heq⟩ := ih
    exact ⟨' ' :: gap, .space hgap, by rw [List.cons_append, ← heq]⟩
  | case2 rest ih =>
    obtain ⟨gap, hgap, heq⟩ := ih
    exact ⟨'\t' :: gap, .tab hgap, by rw [List.cons_append, ← heq]⟩
  | case3 rest ih =>
    obtain ⟨gap, hgap, heq⟩ := ih
    exact ⟨'\\' :: '\n' :: gap, .continued hgap, by rw [List.cons_append, List.cons_append, ← heq]⟩
  | case4 rest => exact ⟨[], .nil, rfl⟩

/-- Behind a gap there is no other gap. -/
theorem dropGap_dropGap (text : List Char) : dropGap (dropGap text) = dropGap text := by
  obtain ⟨gap, hgap, heq⟩ := exists_gap text
  conv_rhs => rw [heq, dropGap_append hgap]

/-- There is no gap just if dropping one changes nothing. -/
theorem noGap_iff {text : List Char} : NoGap text ↔ dropGap text = text := by
  constructor
  · intro h
    obtain ⟨gap, hgap, heq⟩ := exists_gap text
    obtain rfl := h gap _ hgap heq
    exact heq.symm
  · rintro h gap rest hgap rfl
    rw [dropGap_append hgap] at h
    have hlength := congrArg List.length h
    have hle := length_dropGap_le rest
    rw [List.length_append] at hlength
    exact List.length_eq_zero_iff.mp (by omega)

/-- The text behind a gap is found from any gap that cannot be made longer. -/
theorem dropGap_eq_of_noGap {gap rest : List Char} (hgap : Gap gap) (h : NoGap rest) :
    dropGap (gap ++ rest) = rest :=
  (dropGap_append hgap rest).trans (noGap_iff.mp h)

theorem length_dropGap_eq_iff {text : List Char} :
    (dropGap text).length = text.length ↔ dropGap text = text := by
  refine ⟨fun h => ?_, fun h => by rw [h]⟩
  obtain ⟨gap, -, heq⟩ := exists_gap text
  have hlength := congrArg List.length heq
  rw [List.length_append] at hlength
  obtain rfl : gap = [] := List.length_eq_zero_iff.mp (by omega)
  exact heq.symm

theorem Gap.mem {gap : List Char} (h : Gap gap) {c : Char} (hc : c ∈ gap) :
    c ∈ [' ', '\t', '\\', '\n'] := by
  induction h with
  | nil => cases hc
  | space _ ih => rcases List.mem_cons.mp hc with rfl | hc; exacts [by decide, ih hc]
  | tab _ ih => rcases List.mem_cons.mp hc with rfl | hc; exacts [by decide, ih hc]
  | continued _ ih =>
    rcases List.mem_cons.mp hc with rfl | hc
    · decide
    · rcases List.mem_cons.mp hc with rfl | hc
      exacts [by decide, ih hc]

/-- A gap that is not a continued line opens with a blank. -/
theorem Gap.endsWord_head {gap : List Char} (h : Gap gap) (hne : gap ≠ []) {rest : List Char}
    (hcont : ∀ more, gap ++ rest ≠ '\\' :: '\n' :: more) :
    ∃ c more, gap ++ rest = c :: more ∧ endsWord c := by
  cases h with
  | nil => exact absurd rfl hne
  | @space gap h => exact ⟨' ', gap ++ rest, rfl, by decide⟩
  | @tab gap h => exact ⟨'\t', gap ++ rest, rfl, by decide⟩
  | @continued gap h => exact absurd rfl (hcont (gap ++ rest))

/-! ### Words -/

/-- `word` is a whole word in front of `rest`. -/
structure Word (word rest : List Char) : Prop where
  inside : ∀ c ∈ word, endsWord c = false
  stop : ∀ c ∈ rest.head?, endsWord c

theorem word_iff {w rest : List Char} :
    Word w rest ↔ (w.all fun c => !endsWord c) ∧ rest.head?.all endsWord := by
  have hinside : (∀ c ∈ w, endsWord c = false) ↔ w.all fun c => !endsWord c := by simp
  have hstop : (∀ c ∈ rest.head?, endsWord c) ↔ rest.head?.all endsWord := by
    cases rest with
    | nil => simp
    | cons c rest => simp
  rw [← hinside, ← hstop]
  exact ⟨fun h => ⟨h.inside, h.stop⟩, fun h => ⟨h.1, h.2⟩⟩

instance (w rest : List Char) : Decidable (Word w rest) :=
  decidable_of_iff _ word_iff.symm

theorem Word.word {w rest : List Char} (h : Word w rest) : Directive.word (w ++ rest) = w := by
  rw [Directive.word, List.takeWhile_append_of_pos (by simpa using h.inside)]
  cases rest with
  | nil => simp
  | cons c rest => simp [h.stop c rfl]

theorem Word.dropWord {w rest : List Char} (h : Word w rest) :
    Directive.dropWord (w ++ rest) = rest := by
  rw [Directive.dropWord, List.dropWhile_append_of_pos (by simpa using h.inside)]
  cases rest with
  | nil => simp
  | cons c rest => simp [h.stop c rfl]

/-- The word and what is behind it make up the text. -/
theorem word_append_dropWord (text : List Char) : word text ++ dropWord text = text :=
  List.takeWhile_append_dropWhile

theorem word_word (text : List Char) : Word (word text) (dropWord text) where
  inside c hc := by simpa using List.mem_takeWhile_imp hc
  stop c hc := by
    have hnot := List.head?_dropWhile_not (fun c => !endsWord c) text
    rw [dropWord, Option.mem_def] at hc
    simpa [hc] using hnot

/-! ### Lists of names -/

/-- A text starts where a word ends. -/
def Boundary (text : List Char) : Prop :=
  ∀ c ∈ text.head?, endsWord c

theorem Word.boundary {w rest : List Char} (h : Word w rest) : Boundary rest := h.stop

/-- What ends a word and is no blank ends the directive. -/
theorem endsDirective_of_endsWord {c : Char} (h : endsWord c) (hspace : c ≠ ' ')
    (htab : c ≠ '\t') : endsDirective c := by
  rw [endsWord, List.contains_iff_mem] at h
  rw [endsDirective, List.contains_iff_mem]
  simp only [List.mem_cons, hspace, htab, List.not_mem_nil, false_or, or_false] at h
  rcases h with rfl | rfl | rfl | rfl | rfl | rfl | rfl | rfl | rfl | rfl <;> decide

/-- The next word of a list of names is `w`, in front of `rest`: behind a gap that cannot be made
longer, and not with a character that ends the directive. -/
structure Item (text w rest : List Char) : Prop where
  split : ∃ gap, Gap gap ∧ text = gap ++ (w ++ rest)
  solid : NoGap (w ++ rest)
  word : Word w rest
  opens : ∃ c ∈ w.head?, endsDirective c = false

/-- `w` is a word of the list of names at the front of a text. -/
inductive Lists : List Char → List Char → Prop
  | head {text w rest : List Char} : Item text w rest → Lists text w
  | tail {text v w rest : List Char} : Item text v rest → Lists rest w → Lists text w

theorem Item.dropGap {text w rest : List Char} (h : Item text w rest) :
    Directive.dropGap text = w ++ rest := by
  obtain ⟨gap, hgap, rfl⟩ := h.split
  exact dropGap_eq_of_noGap hgap h.solid

/-- Every name takes up some of the text. -/
theorem Item.length_lt {text w rest : List Char} (h : Item text w rest) :
    rest.length < text.length := by
  obtain ⟨gap, -, rfl⟩ := h.split
  obtain ⟨c, hc, -⟩ := h.opens
  obtain ⟨more, rfl⟩ := List.head?_eq_some_iff.mp hc
  simp only [List.length_append, List.length_cons]
  omega

/-- The first name of a list and what is behind it are determined. -/
theorem Item.unique {text v w rest more : List Char} (hv : Item text v rest)
    (hw : Item text w more) : v = w ∧ rest = more := by
  have heq : v ++ rest = w ++ more := hv.dropGap.symm.trans hw.dropGap
  exact ⟨by rw [← hv.word.word, heq, hw.word.word],
    by rw [← hv.word.dropWord, heq, hw.word.dropWord]⟩

/-- At a boundary, the text behind the gap starts with no blank. -/
theorem endsWord_of_dropGap {text more : List Char} {c : Char}
    (h : dropGap text = c :: more) (hc : endsDirective c = false) : endsWord c = false := by
  by_contra hword
  rw [Bool.not_eq_false] at hword
  have hfix : dropGap (c :: more) = c :: more := h ▸ dropGap_dropGap text
  have hlength := congrArg List.length hfix
  by_cases hspace : c = ' '
  · subst hspace
    have hle := length_dropGap_le more
    rw [dropGap, List.length_cons] at hlength
    omega
  · by_cases htab : c = '\t'
    · subst htab
      have hle := length_dropGap_le more
      rw [dropGap, List.length_cons] at hlength
      omega
    · rw [endsDirective_of_endsWord hword hspace htab] at hc
      cases hc

/-- Behind a gap, anything that does not end the directive begins a name. -/
theorem item_of_dropGap {text more : List Char} {c : Char} (h : dropGap text = c :: more)
    (hc : endsDirective c = false) : Item text (word (c :: more)) (dropWord (c :: more)) where
  split := by
    obtain ⟨gap, hgap, heq⟩ := exists_gap text
    exact ⟨gap, hgap, by rwa [word_append_dropWord, ← h]⟩
  solid := by
    rw [word_append_dropWord, noGap_iff, ← h, dropGap_dropGap]
  word := word_word _
  opens := by
    have hword := endsWord_of_dropGap h hc
    exact ⟨c, by simp [Directive.word, hword], hc⟩

/-- **What one step of reading names does.** At a boundary the list ends with the text or with a
character that ends the directive, or it has a next word. -/
theorem names_cases {text : List Char} (hb : Boundary text) :
    (names text = ([], dropGap text) ∧ ∀ c ∈ (dropGap text).head?, endsDirective c) ∨
    ∃ w rest, Item text w rest ∧
      names text = (Text.unquote w :: (names rest).1, (names rest).2) := by
  cases h : dropGap text with
  | nil =>
    refine .inl ⟨?_, by simp⟩
    rw [names]
    simp only [h]
  | cons c more =>
    by_cases hc : endsDirective c
    · refine .inl ⟨?_, by simpa using hc⟩
      rw [names]
      simp only [h, hc, if_true]
    · have hend : endsDirective c = false := by simpa using hc
      refine .inr ⟨_, _, item_of_dropGap h hend, ?_⟩
      -- a word without a gap before it would start where a word ends
      have hlength : (dropGap text).length ≠ text.length := by
        rw [Ne, length_dropGap_eq_iff, h]
        rintro rfl
        have hword : endsWord c = true := hb c rfl
        rw [endsWord_of_dropGap h hend] at hword
        cases hword
      rw [h] at hlength
      rw [names]
      simp only [h, hc, hlength, if_false, Bool.false_eq_true]

/-- No word is next where the list has ended. -/
theorem not_item_of_ended {text w rest : List Char}
    (hend : ∀ c ∈ (dropGap text).head?, endsDirective c) : ¬Item text w rest := by
  intro hitem
  obtain ⟨c, hc, hopens⟩ := hitem.opens
  have hhead : c ∈ (dropGap text).head? := by
    obtain ⟨more, rfl⟩ := List.head?_eq_some_iff.mp hc
    rw [hitem.dropGap]
    rfl
  rw [hend c hhead] at hopens
  cases hopens

/-- No names are read where the directive ends. -/
theorem names_of_ended {text : List Char} (hb : Boundary text)
    (hend : ∀ c ∈ (dropGap text).head?, endsDirective c) : names text = ([], dropGap text) := by
  rcases names_cases hb with ⟨heq, -⟩ | ⟨w, rest, hitem, -⟩
  · exact heq
  · exact absurd hitem (not_item_of_ended hend)

/-- The first name is read and unquoted, and then the others. -/
theorem names_of_item {text w rest : List Char} (hb : Boundary text) (hitem : Item text w rest) :
    names text = (Text.unquote w :: (names rest).1, (names rest).2) := by
  rcases names_cases hb with ⟨-, hend⟩ | ⟨v, more, hother, heq⟩
  · exact absurd hitem (not_item_of_ended hend)
  · obtain ⟨rfl, rfl⟩ := hitem.unique hother
    exact heq

/-- **The names read are the words listed**, each without one layer of quotes. -/
theorem mem_names_iff {text name : List Char} (hb : Boundary text) :
    name ∈ (names text).1 ↔ ∃ w, Lists text w ∧ Text.Unquoted w name := by
  induction hn : text.length using Nat.strong_induction_on generalizing text with
  | _ n ih =>
    rcases names_cases hb with ⟨heq, hend⟩ | ⟨v, rest, hitem, heq⟩
    · rw [heq]
      simp only [List.not_mem_nil, false_iff]
      rintro ⟨w, hlists, -⟩
      cases hlists with
      | head hitem => exact not_item_of_ended hend hitem
      | tail hitem _ => exact not_item_of_ended hend hitem
    · rw [heq, List.mem_cons, ih rest.length (hn ▸ hitem.length_lt) hitem.word.boundary rfl]
      constructor
      · rintro (rfl | ⟨w, hlists, hname⟩)
        · exact ⟨v, .head hitem, Text.unquote_eq_iff.mp rfl⟩
        · exact ⟨w, .tail hitem hlists, hname⟩
      · rintro ⟨w, hlists, hname⟩
        cases hlists with
        | head hw =>
          obtain ⟨rfl, -⟩ := hitem.unique hw
          exact .inl (Text.unquote_eq_iff.mpr hname).symm
        | tail hv hlists =>
          obtain ⟨-, rfl⟩ := hitem.unique hv
          exact .inr ⟨w, hlists, hname⟩

end ShellSurvey.Directive
