import Mathlib.Data.List.TakeWhile
import ShellSurvey.Path
import ShellSurvey.Proofs.Text.Split

/-!
# Paths and their texts

The parts of a path that is read from a text are names (`Path.IsName`): they are neither empty nor
a dot, and have no slash. A path whose parts are names can be written and read back
(`Path.ofString_text`), so the text of a path that was read is its normal form
(`Path.ofString_text_ofString`). The last part is that of the text behind the last directory
(`Path.name_append`), and its suffix starts at its last dot (`Path.suffixOf_eq_cons_iff`).
-/

namespace ShellSurvey

/-! ### Names -/

namespace Path

variable {path : Path}

/-- What a part of a path can be: neither empty nor a dot, and without a slash. -/
structure IsName (part : List Char) : Prop where
  ne_nil : part ≠ []
  ne_dot : part ≠ ['.']
  slash : '/' ∉ part

theorem IsName.isPart {part : List Char} (h : IsName part) : isPart part := by
  simp [Path.isPart, h.ne_nil, h.ne_dot]

/-- Reading a text leaves no empty part, no dot and no slash within a part. -/
theorem isName_of_mem_ofChars {text part : List Char} (h : part ∈ (ofChars text).parts) :
    IsName part := by
  obtain ⟨hpiece, hpart⟩ := List.mem_filter.mp h
  rw [isPart, Bool.and_eq_true, Bool.not_eq_true', bne_iff_ne] at hpart
  refine ⟨List.isEmpty_eq_false_iff.mp hpart.1, hpart.2, fun hslash => ?_⟩
  have hcut := Text.not_cut_of_mem_splitWhere hpiece hslash
  cases hcut

theorem isName_of_mem_ofString {text : String} {part : List Char}
    (h : part ∈ (ofString text).parts) : IsName part :=
  isName_of_mem_ofChars h

/-- Nothing is dropped from parts that are names. -/
theorem filter_isPart_of_isName {parts : List (List Char)} (h : ∀ part ∈ parts, IsName part) :
    parts.filter isPart = parts :=
  List.filter_eq_self.mpr fun part hpart => (h part hpart).isPart

/-! ### Written paths -/

/-- Cutting at slashes undoes joining with slashes. -/
theorem pieces_joinWith {parts : List (List Char)} (hne : parts ≠ [])
    (h : ∀ part ∈ parts, IsName part) : pieces (Text.joinWith '/' parts) = parts := by
  refine Text.splitWhere_joinWith hne (fun part hpart c hc => ?_) rfl
  rw [beq_eq_false_iff_ne]
  rintro rfl
  exact (h part hpart).slash hc

/-- The text of parts starts with the first part, and so not with a slash. -/
theorem exists_joinWith_eq_cons {parts : List (List Char)} (hne : parts ≠ [])
    (h : ∀ part ∈ parts, IsName part) :
    ∃ c rest, Text.joinWith '/' parts = c :: rest ∧ c ≠ '/' := by
  obtain ⟨first, others, rfl⟩ := List.exists_cons_of_ne_nil hne
  have hfirst := h first List.mem_cons_self
  obtain ⟨c, cs, rfl⟩ := List.exists_cons_of_ne_nil hfirst.ne_nil
  have hc : c ≠ '/' := by
    rintro rfl
    exact hfirst.slash List.mem_cons_self
  cases others with
  | nil => exact ⟨c, cs, rfl, hc⟩
  | cons next others => exact ⟨c, _, rfl, hc⟩

theorem chars_eq (hne : path.parts ≠ []) :
    path.chars = rootChars path.root ++ Text.joinWith '/' path.parts := by
  obtain ⟨first, others, hparts⟩ := List.exists_cons_of_ne_nil hne
  rw [chars]
  split
  · rename_i hnil
    rw [hparts] at hnil
    cases hnil
  · rfl

/-- The pieces of a written path are its parts, behind an empty piece for each slash of its
root. -/
theorem pieces_chars (hne : path.parts ≠ []) (h : ∀ part ∈ path.parts, IsName part) :
    pieces path.chars = (rootChars path.root).map (fun _ => []) ++ path.parts := by
  have hpieces := pieces_joinWith hne h
  rw [chars_eq hne]
  cases path.root with
  | here => exact hpieces
  | single => exact congrArg ([] :: ·) hpieces
  | double => exact congrArg ([] :: [] :: ·) hpieces

/-- The root of a written path is read back. -/
theorem rootOf_chars (hne : path.parts ≠ []) (h : ∀ part ∈ path.parts, IsName part) :
    rootOf path.chars = path.root := by
  obtain ⟨c, rest, htext, hc⟩ := exists_joinWith_eq_cons hne h
  rw [chars_eq hne, htext]
  cases path.root with
  | here => simp [rootChars, rootOf, hc]
  | single => simp [rootChars, rootOf, hc]
  | double => simp [rootChars, rootOf, hc]

/-- **A written path is read back.** -/
theorem ofString_text (h : ∀ part ∈ path.parts, IsName part) : ofString path.text = path := by
  rw [ofString, text, String.toList_ofList]
  by_cases hne : path.parts = []
  · -- Without parts the text is a root alone, or the dot of the current directory.
    obtain ⟨root, parts⟩ := path
    obtain rfl : parts = [] := hne
    cases root <;> rfl
  · have hparts : (pieces path.chars).filter isPart = path.parts := by
      have hempty : ((rootChars path.root).map fun _ => ([] : List Char)).filter isPart = [] :=
        List.filter_eq_nil_iff.mpr fun piece hpiece => by
          obtain ⟨_, -, rfl⟩ := List.mem_map.mp hpiece
          simp [isPart]
      rw [pieces_chars hne h, List.filter_append, hempty, filter_isPart_of_isName h,
        List.nil_append]
    rw [ofChars, rootOf_chars hne h, hparts]

/-- Reading a path and writing it is the same as doing so twice. -/
theorem ofString_text_ofString (text : String) :
    ofString (ofString text).text = ofString text :=
  ofString_text fun _ hpart => isName_of_mem_ofString hpart

/-! ### Roots -/

/-- A text names an absolute path just if it begins with a slash. -/
theorem head?_beq_slash (text : List Char) :
    (text.head? == some '/') = (ofChars text).isAbsolute := by
  rw [isAbsolute, ofChars, rootOf.eq_def]
  split
  · rfl
  · rfl
  · rfl
  · rename_i hne
    cases text with
    | nil => rfl
    | cons c rest =>
      have hc : c ≠ '/' := by
        rintro rfl
        exact hne rest rfl
      simp [hc]

theorem isAbsolute_ofChars_iff {text : List Char} :
    (ofChars text).isAbsolute ↔ text.head? = some '/' := by
  rw [← head?_beq_slash, beq_iff_eq]

theorem head?_chars_of_isAbsolute (h : path.isAbsolute) : path.chars.head? = some '/' := by
  obtain ⟨root, parts⟩ := path
  cases root with
  | here => cases h
  | single => rfl
  | double => rfl

/-! ### Last parts -/

variable {text front back name : List Char}

theorem pieces_append_slash (front back : List Char) :
    pieces (front ++ '/' :: back) = pieces front ++ pieces back :=
  Text.splitWhere_append_sep rfl front back

@[simp]
theorem parts_nil : (ofChars []).parts = [] := rfl

/-- A slash separates the parts in front of it from those behind. -/
theorem parts_append_slash (front back : List Char) :
    (ofChars (front ++ '/' :: back)).parts = (ofChars front).parts ++ (ofChars back).parts := by
  simp only [ofChars, pieces_append_slash, List.filter_append]

/-- Directories before a path come before its parts. -/
theorem parts_append_of_front (h : ∀ c ∈ front.getLast?, c = '/') (text : List Char) :
    (ofChars (front ++ text)).parts = (ofChars front).parts ++ (ofChars text).parts := by
  rcases List.eq_nil_or_concat' front with rfl | ⟨init, c, rfl⟩
  · simp
  · obtain rfl : c = '/' := h c List.getLast?_concat
    rw [List.append_assoc, List.singleton_append, parts_append_slash, parts_append_slash, parts_nil,
      List.append_nil]

/-- What begins with a slash only adds parts. -/
theorem parts_append_of_back (h : ∀ c ∈ back.head?, c = '/') (text : List Char) :
    (ofChars (text ++ back)).parts = (ofChars text).parts ++ (ofChars back).parts := by
  cases back with
  | nil => simp
  | cons c rest =>
    obtain rfl : c = '/' := h c rfl
    have hrest := parts_append_slash [] rest
    rw [parts_nil, List.nil_append, List.nil_append] at hrest
    rw [parts_append_slash, hrest]

/-- Neither directories before a path nor slashes and dots behind it change its last part. -/
theorem name_append (hfront : ∀ c ∈ front.getLast?, c = '/') (hback : ∀ c ∈ back.head?, c = '/')
    (hempty : ∀ piece ∈ pieces back, piece = [] ∨ piece = ['.'])
    (hne : (ofChars text).parts ≠ []) :
    (ofChars (front ++ text ++ back)).name = (ofChars text).name := by
  have hparts : (ofChars back).parts = [] := by
    refine List.filter_eq_nil_iff.mpr fun piece hpiece => ?_
    rcases hempty piece hpiece with rfl | rfl <;> decide
  rw [Path.name, Path.name, parts_append_of_back hback, hparts, List.append_nil,
    parts_append_of_front hfront, List.getLast?_append_of_ne_nil _ hne]

theorem parts_of_isName (h : IsName name) : (ofChars name).parts = [name] := by
  have hpieces : pieces name = [name] := Text.splitWhere_of_notMem h.slash
  rw [ofChars, hpieces]
  exact List.filter_cons_of_pos h.isPart

theorem name_of_isName (h : IsName name) : (ofChars name).name = name := by
  rw [Path.name, parts_of_isName h]
  rfl

/-! ### Suffixes -/

/-- A name with a dot is cut at its last one. -/
theorem exists_last_dot (h : '.' ∈ name) :
    ∃ stem ending, name = stem ++ '.' :: ending ∧ '.' ∉ ending := by
  obtain ⟨ending, stem, hreverse, hending⟩ :=
    List.eq_append_cons_of_mem (List.mem_reverse.mpr h)
  refine ⟨stem.reverse, ending.reverse, ?_, by simpa using hending⟩
  rw [← List.reverse_reverse name, hreverse]
  simp

theorem bne_dot_of_mem_reverse (h : '.' ∉ name) : ∀ c ∈ name.reverse, (c != '.') = true := by
  intro c hc
  rw [bne_iff_ne]
  rintro rfl
  exact h (List.mem_reverse.mp hc)

/-- The suffix begins at the last dot, unless that is at the beginning or at the end. -/
theorem suffixOf_append {ending : List Char} (stem : List Char) (h : '.' ∉ ending) :
    suffixOf (stem ++ '.' :: ending) = if stem = [] ∨ ending = [] then [] else '.' :: ending := by
  have hafter : ((stem ++ '.' :: ending).reverse.takeWhile (· != '.')).reverse = ending := by
    rw [List.reverse_append, List.reverse_cons, List.append_assoc,
      List.takeWhile_append_of_pos (bne_dot_of_mem_reverse h)]
    simp
  have hbefore : (stem ++ '.' :: ending).length - ending.length - 1 = stem.length := by
    simp only [List.length_append, List.length_cons]
    omega
  have hlength : ending.length < (stem ++ '.' :: ending).length := by
    simp only [List.length_append, List.length_cons]
    omega
  rw [suffixOf, hafter, hbefore, List.take_left]
  by_cases hstem : stem = [] <;> by_cases hnil : ending = [] <;>
    simp [hstem, hnil, hlength, -List.length_append]

theorem suffixOf_of_notMem (h : '.' ∉ name) : suffixOf name = [] := by
  have hafter : (name.reverse.takeWhile (· != '.')).reverse = name := by
    rw [List.takeWhile_eq_self_iff.mpr (bne_dot_of_mem_reverse h), List.reverse_reverse]
  rw [suffixOf, hafter]
  simp

/-- The suffix starts at the last dot, unless that is the first or the last character. -/
theorem suffixOf_eq_cons_iff {ending : List Char} :
    suffixOf name = '.' :: ending ↔
      ∃ stem, name = stem ++ '.' :: ending ∧ stem ≠ [] ∧ ending ≠ [] ∧ '.' ∉ ending := by
  constructor
  · intro hsuffix
    by_cases hdot : '.' ∈ name
    · obtain ⟨stem, other, rfl, hother⟩ := exists_last_dot hdot
      rw [suffixOf_append stem hother] at hsuffix
      split_ifs at hsuffix with hnil
      obtain ⟨-, rfl⟩ := List.cons.inj hsuffix
      rw [not_or] at hnil
      exact ⟨stem, rfl, hnil.1, hnil.2, hother⟩
    · rw [suffixOf_of_notMem hdot] at hsuffix
      cases hsuffix
  · rintro ⟨stem, rfl, hstem, hending, hdot⟩
    rw [suffixOf_append stem hdot, if_neg (not_or.mpr ⟨hstem, hending⟩)]

theorem suffixOf_cases (name : List Char) :
    suffixOf name = [] ∨ ∃ ending, suffixOf name = '.' :: ending := by
  rw [suffixOf]
  split_ifs
  · exact .inr ⟨_, rfl⟩
  · exact .inl rfl

end Path

end ShellSurvey
