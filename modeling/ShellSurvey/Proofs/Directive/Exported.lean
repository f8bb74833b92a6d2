import Mathlib.Data.List.Infix
import ShellSurvey.Proofs.Directive.Words
import ShellSurvey.Proofs.Text.Split

/-!
# Exported functions

A source exports a function if **some** place of it holds a directive for the name: a keyword
where a command may start, a gap, the flag, and a list of names with the name in it
(`isExportedFrom_iff`).

The scan behind it does not try every place. Once it has read a directive it goes on where that
directive ends, and a directive that starts inside of the list is never looked at. Nothing is
lost: the inner keyword is the end of a word of the outer list, so from there on both lists are
cut into the same words, and the outer list holds every name of the inner one
(`mem_names_of_keyword`). The one exception is a keyword with a continued line right behind it.
Its backslash belongs to the word for the outer list and to the gap for the inner one, so the two
disagree on what follows; such keywords are excluded.
-/

namespace ShellSurvey.Directive

/-- The text behind a keyword is a directive that lists the name. -/
def DirectiveFor (name after : List Char) : Prop :=
  ∃ gap rest w, Gap gap ∧ gap ≠ [] ∧ after = gap ++ (flag ++ rest) ∧ Word flag rest ∧
    Lists rest w ∧ Text.Unquoted w name

/-- A continued line stands right behind no keyword of a text. -/
def NoContinuedKeyword (text : List Char) : Prop :=
  ¬keyword ++ ['\\', '\n'] <:+: text

instance (text : List Char) : Decidable (NoContinuedKeyword text) :=
  inferInstanceAs (Decidable (¬keyword ++ ['\\', '\n'] <:+: text))

theorem NoContinuedKeyword.of_cons {c : Char} {text : List Char}
    (h : NoContinuedKeyword (c :: text)) : NoContinuedKeyword text :=
  fun hinfix => h (List.infix_cons hinfix)

/-! ### Reading one directive -/

theorem noGap_flag (rest : List Char) : NoGap (flag ++ rest) :=
  noGap_iff.mpr rfl

/-- A gap, the flag and a list are read as a directive. -/
theorem read?_eq_some {gap rest : List Char} (hgap : Gap gap) (hne : gap ≠ [])
    (hflag : Word flag rest) : read? (gap ++ (flag ++ rest)) = some (names rest) := by
  have hdrop : dropGap (gap ++ (flag ++ rest)) = flag ++ rest :=
    dropGap_eq_of_noGap hgap (noGap_flag rest)
  have hlength : (flag ++ rest).length ≠ (gap ++ (flag ++ rest)).length := by
    have hpos := List.length_pos_of_ne_nil hne
    simp only [List.length_append]
    omega
  rw [read?]
  simp only [hdrop, hlength, if_false, hflag.word, hflag.dropWord, if_true]

/-- Only a gap, the flag and a list are read as a directive. -/
theorem exists_of_read? {text : List Char} {found : List (List Char) × List Char}
    (h : read? text = some found) :
    ∃ gap rest, Gap gap ∧ gap ≠ [] ∧ text = gap ++ (flag ++ rest) ∧ Word flag rest ∧
      found = names rest := by
  rw [read?] at h
  split_ifs at h with hlength hflag
  obtain ⟨gap, hgap, hsplit⟩ := exists_gap text
  have hword := word_word (dropGap text)
  rw [hflag] at hword
  refine ⟨gap, dropWord (dropGap text), hgap, ?_, ?_, hword, (Option.some_inj.mp h).symm⟩
  · rintro rfl
    exact hlength (congrArg List.length hsplit.symm)
  · rwa [← hflag, word_append_dropWord]

/-- A directive lists a name if reading it gives the name. -/
theorem directiveFor_iff {name after : List Char} :
    DirectiveFor name after ↔ ∃ found, read? after = some found ∧ name ∈ found.1 := by
  constructor
  · rintro ⟨gap, rest, w, hgap, hne, rfl, hflag, hlists, hname⟩
    exact ⟨names rest, read?_eq_some hgap hne hflag,
      (mem_names_iff hflag.boundary).mpr ⟨w, hlists, hname⟩⟩
  · rintro ⟨found, hread, hmem⟩
    obtain ⟨gap, rest, hgap, hne, rfl, hflag, rfl⟩ := exists_of_read? hread
    obtain ⟨w, hlists, hname⟩ := (mem_names_iff hflag.boundary).mp hmem
    exact ⟨gap, rest, w, hgap, hne, rfl, hflag, hlists, hname⟩

/-! ### A directive inside of a list of names -/

/-- No keyword begins within a gap. -/
theorem Gap.not_mem_e {gap : List Char} (h : Gap gap) : 'e' ∉ gap :=
  fun he => absurd (h.mem he) (by decide)

/-- Where a directive follows, a keyword is the end of a word. -/
theorem word_keyword {name after : List Char} (h : DirectiveFor name after)
    (hcont : ∀ more, after ≠ '\\' :: '\n' :: more) : Word keyword after where
  inside := (show Word keyword [] by decide).inside
  stop c hc := by
    obtain ⟨gap, rest, w, hgap, hne, rfl, -⟩ := h
    obtain ⟨d, more, heq, hd⟩ := hgap.endsWord_head hne hcont
    rw [heq] at hc
    obtain rfl : d = c := Option.some_inj.mp hc
    exact hd

/-- The names of a directive are names for a list that has come to its gap. -/
theorem mem_names_of_directiveFor {name after : List Char} (hb : Boundary after)
    (h : DirectiveFor name after) : name ∈ (names after).1 := by
  obtain ⟨gap, rest, w, hgap, hne, rfl, hflag, hlists, hname⟩ := h
  have hitem : Item (gap ++ (flag ++ rest)) flag rest :=
    ⟨⟨gap, hgap, rfl⟩, noGap_flag rest, hflag, '-', rfl, by decide⟩
  exact (mem_names_iff hb).mpr ⟨w, .tail hitem hlists, hname⟩

/-- **A list of names holds those of a directive that starts inside of it.** -/
theorem mem_names_of_keyword {text before after name : List Char} (hb : Boundary text)
    (htext : text = before ++ (keyword ++ after))
    (hinside : before.length + (names text).2.length < text.length)
    (hcont : ∀ more, after ≠ '\\' :: '\n' :: more) (h : DirectiveFor name after) :
    name ∈ (names text).1 := by
  induction hn : text.length using Nat.strong_induction_on generalizing text before with
  | _ n ih =>
    rcases names_cases hb with ⟨heq, -⟩ | ⟨w, rest, hitem, heq⟩
    · -- the list has ended: the keyword would stand in the gap
      obtain ⟨gap, hgap, hsplit⟩ := exists_gap text
      obtain ⟨middle, rfl, -⟩ := Text.exists_of_append_eq (hsplit.symm.trans htext) hgap.not_mem_e
      have hlength := congrArg List.length hsplit
      rw [heq] at hinside
      simp only [List.length_append] at hinside hlength
      omega
    · obtain ⟨gap, hgap, hsplit⟩ := hitem.split
      obtain ⟨middle, rfl, hmiddle⟩ :=
        Text.exists_of_append_eq (hsplit.symm.trans htext) hgap.not_mem_e
      rw [heq] at hinside ⊢
      rcases List.append_eq_append_iff.mp hmiddle with ⟨more, rfl, hrest⟩ | ⟨more, hw, hkey⟩
      · -- the keyword stands behind the word: go on with the rest of the list
        refine List.mem_cons_of_mem _ (ih rest.length (hn ▸ hitem.length_lt)
          hitem.word.boundary hrest ?_ rfl)
        rw [hsplit] at hinside
        simp only [List.length_append] at hinside
        omega
      · -- the keyword ends the word: both lists go on behind it
        have hword : Word more rest :=
          ⟨fun c hc => hitem.word.inside c (hw ▸ List.mem_append_right middle hc),
            hitem.word.stop⟩
        have hkeyword := word_keyword h hcont
        have hafter : after = rest :=
          calc after = dropWord (keyword ++ after) := hkeyword.dropWord.symm
            _ = dropWord (more ++ rest) := congrArg dropWord hkey
            _ = rest := hword.dropWord
        subst hafter
        exact List.mem_cons_of_mem _ (mem_names_of_directiveFor hitem.word.boundary h)

/-! ### Scanning a source -/

/-- A directive for the name stands in a text, with at least `skip` characters before it. `before`
is the character in front of the text. -/
def Occurs (name : List Char) (skip : Nat) (before : Option Char) (text : List Char) : Prop :=
  ∃ front after, text = front ++ (keyword ++ after) ∧ skip ≤ front.length ∧
    startsCommand (front.getLast?.or before) ∧ DirectiveFor name after

theorem not_occurs_nil {name : List Char} {skip : Nat} {before : Option Char} :
    ¬Occurs name skip before [] := by
  rintro ⟨front, after, htext, -⟩
  have hlength := congrArg List.length htext
  simp [keyword] at hlength

/-- What is found behind some characters is found without leaving them out. -/
theorem Occurs.zero {name text : List Char} {skip : Nat} {before : Option Char}
    (h : Occurs name skip before text) : Occurs name 0 before text := by
  obtain ⟨front, after, htext, -, hstart, hdirective⟩ := h
  exact ⟨front, after, htext, Nat.zero_le _, hstart, hdirective⟩

theorem occurs_cons_succ {name rest : List Char} {skip : Nat} {before : Option Char} {c : Char} :
    Occurs name (skip + 1) before (c :: rest) ↔ Occurs name skip (some c) rest := by
  constructor
  · rintro ⟨front, after, htext, hskip, hstart, h⟩
    cases front with
    | nil => simp at hskip
    | cons d front =>
      obtain ⟨rfl, hrest⟩ := List.cons.inj htext
      refine ⟨front, after, hrest, by simpa using hskip, ?_, h⟩
      cases hlast : front.getLast? <;> simp_all [List.getLast?_cons]
  · rintro ⟨front, after, rfl, hskip, hstart, h⟩
    refine ⟨c :: front, after, rfl, by simpa using hskip, ?_, h⟩
    cases hlast : front.getLast? <;> simp_all [List.getLast?_cons]

/-- A directive begins at the first character or behind it. -/
theorem occurs_cons_zero {name rest : List Char} {before : Option Char} {c : Char} :
    Occurs name 0 before (c :: rest) ↔
      (startsCommand before ∧ ∃ after, c :: rest = keyword ++ after ∧ DirectiveFor name after) ∨
      Occurs name 0 (some c) rest := by
  rw [← @occurs_cons_succ name rest 0 before c]
  constructor
  · rintro ⟨front, after, htext, -, hstart, h⟩
    cases front with
    | nil => exact .inl ⟨hstart, after, htext, h⟩
    | cons d front => exact .inr ⟨d :: front, after, htext, by simp, hstart, h⟩
  · rintro (⟨hstart, after, htext, h⟩ | ⟨front, after, htext, -, hstart, h⟩)
    · exact ⟨[], after, htext, Nat.le_refl 0, hstart, h⟩
    · exact ⟨front, after, htext, Nat.zero_le _, hstart, h⟩

theorem keyword_append (text : List Char) :
    keyword ++ text = 'e' :: (['x', 'p', 'o', 'r', 't'] ++ text) := rfl

theorem keyword_append_drop {text : List Char} (h : keyword.isPrefixOf text) :
    text = keyword ++ text.drop keyword.length :=
  (List.prefix_iff_eq_append.mp (List.isPrefixOf_iff_prefix.mp h)).symm

/-- A keyword behind the one that opens a directive stands behind the flag: the gap and the flag
have no letter of it. -/
theorem exists_behind_flag {gap listed front after : List Char} (hgap : Gap gap)
    (h : keyword ++ (gap ++ (flag ++ listed)) = front ++ (keyword ++ after)) (hne : front ≠ []) :
    ∃ middle, front = keyword ++ (gap ++ (flag ++ middle)) ∧
      listed = middle ++ (keyword ++ after) := by
  obtain ⟨c, front, rfl⟩ := List.exists_cons_of_ne_nil hne
  rw [keyword_append] at h
  obtain ⟨rfl, htail⟩ := List.cons.inj h
  obtain ⟨first, rfl, hfirst⟩ := Text.exists_of_append_eq htail (by decide)
  obtain ⟨second, rfl, hsecond⟩ := Text.exists_of_append_eq hfirst hgap.not_mem_e
  obtain ⟨third, rfl, hthird⟩ := Text.exists_of_append_eq hsecond (by decide)
  exact ⟨third, rfl, hthird⟩

/-- Going on where a directive ends loses nothing but names that it lists. -/
theorem occurs_of_occurs_zero {name rest text : List Char} {c : Char}
    {found : List (List Char) × List Char} (hcont : NoContinuedKeyword (c :: rest))
    (htext : c :: rest = keyword ++ text) (hread : read? text = some found)
    (hname : name ∉ found.1) (h : Occurs name 0 (some c) rest) :
    Occurs name (rest.length - found.2.length) (some c) rest := by
  obtain ⟨front, after, hrest, -, hstart, hdirective⟩ := h
  refine ⟨front, after, hrest, ?_, hstart, hdirective⟩
  by_contra hskip
  refine hname ?_
  obtain ⟨gap, listed, hgap, -, rfl, hflag, rfl⟩ := exists_of_read? hread
  have hnot : ∀ more, after ≠ '\\' :: '\n' :: more := by
    rintro more rfl
    exact hcont ⟨c :: front, more, by rw [hrest]; simp⟩
  have hboth : keyword ++ (gap ++ (flag ++ listed)) = (c :: front) ++ (keyword ++ after) := by
    rw [← htext, hrest, List.cons_append]
  obtain ⟨middle, hfront, hlisted⟩ := exists_behind_flag hgap hboth (List.cons_ne_nil c front)
  refine mem_names_of_keyword hflag.boundary hlisted ?_ hnot hdirective
  have hlength := congrArg List.length htext
  have hlengthFront := congrArg List.length hfront
  simp only [List.length_append, List.length_cons] at hlength hlengthFront ⊢
  omega

/-- Whatever the scan finds is a directive for the name. -/
theorem occurs_of_isExportedFrom {name text : List Char} {skip : Nat} {before : Option Char}
    (h : isExportedFrom name skip before text) : Occurs name skip before text := by
  fun_induction isExportedFrom name skip before text with
  | case1 => cases h
  | case2 before c rest skip ih => exact occurs_cons_succ.mpr (ih h)
  | case3 before c rest hkey listed after hread ih =>
    obtain ⟨hstart, hprefix⟩ := Bool.and_eq_true_iff.mp hkey
    rw [Bool.or_eq_true, List.contains_iff_mem] at h
    rcases h with hmem | hlater
    · exact occurs_cons_zero.mpr (.inl ⟨hstart, _, keyword_append_drop hprefix,
        directiveFor_iff.mpr ⟨_, hread, hmem⟩⟩)
    · exact occurs_cons_zero.mpr (.inr (ih hlater).zero)
  | case4 before c rest hkey hread ih => exact occurs_cons_zero.mpr (.inr (ih h))
  | case5 before c rest hkey ih => exact occurs_cons_zero.mpr (.inr (ih h))

/-- **The scan finds a directive wherever one stands.** -/
theorem isExportedFrom_iff {name text : List Char} {skip : Nat} {before : Option Char}
    (hcont : NoContinuedKeyword text) :
    isExportedFrom name skip before text ↔ Occurs name skip before text := by
  refine ⟨occurs_of_isExportedFrom, fun h => ?_⟩
  fun_induction isExportedFrom name skip before text with
  | case1 => exact absurd h not_occurs_nil
  | case2 before c rest skip ih => exact ih hcont.of_cons (occurs_cons_succ.mp h)
  | case3 before c rest hkey listed after hread ih =>
    obtain ⟨-, hprefix⟩ := Bool.and_eq_true_iff.mp hkey
    have htext := keyword_append_drop hprefix
    rw [Bool.or_eq_true, List.contains_iff_mem]
    rcases occurs_cons_zero.mp h with ⟨-, after', htext', hdirective⟩ | hlater
    · obtain ⟨found, hfound, hmem⟩ := directiveFor_iff.mp hdirective
      rw [List.append_cancel_left (htext'.symm.trans htext), hread] at hfound
      obtain rfl := Option.some_inj.mp hfound
      exact .inl hmem
    · by_cases hmem : name ∈ listed
      · exact .inl hmem
      · exact .inr (ih hcont.of_cons (occurs_of_occurs_zero hcont htext hread hmem hlater))
  | case4 before c rest hkey hread ih =>
    obtain ⟨-, hprefix⟩ := Bool.and_eq_true_iff.mp hkey
    rcases occurs_cons_zero.mp h with ⟨-, after, htext, hdirective⟩ | hlater
    · obtain ⟨found, hfound, -⟩ := directiveFor_iff.mp hdirective
      rw [List.append_cancel_left (htext.symm.trans (keyword_append_drop hprefix)), hread] at hfound
      cases hfound
    · exact ih hcont.of_cons hlater
  | case5 before c rest hkey ih =>
    rcases occurs_cons_zero.mp h with ⟨hstart, after, htext, -⟩ | hlater
    · refine absurd (Bool.and_eq_true_iff.mpr ⟨hstart, ?_⟩) hkey
      rw [htext]
      exact List.isPrefixOf_iff_prefix.mpr (List.prefix_append keyword after)
    · exact ih hcont.of_cons hlater

/-- **Export detection.** A source exports a function if a directive for it stands anywhere in the
source: the keyword at the front or behind a character that may precede a command, a gap, the flag
as a whole word, and a list of names in which some word is the name, one layer of quotes left
aside. -/
theorem isExported_iff {name source : List Char} (hname : name ≠ [])
    (hcont : NoContinuedKeyword source) :
    isExported name source ↔ ∃ before after, source = before ++ (keyword ++ after) ∧
      startsCommand before.getLast? ∧ DirectiveFor name after := by
  have hnonempty : (!name.isEmpty) = true := by simpa using hname
  rw [isExported, hnonempty, Bool.true_and, isExportedFrom_iff hcont]
  simp [Occurs]

/-- A source with a directive inside of a list of names: the scan reads the outer directive and
passes over the inner one, whose name it has found nevertheless. -/
theorem isExported_inner :
    NoContinuedKeyword (keyword ++ " -f a ".toList ++ '\x7b' :: keyword ++ " -f 'b'".toList) ∧
      isExported ['b']
        (keyword ++ " -f a ".toList ++ '\x7b' :: keyword ++ " -f 'b'".toList) := by
  have hcont : NoContinuedKeyword
      (keyword ++ " -f a ".toList ++ '\x7b' :: keyword ++ " -f 'b'".toList) := by
    decide
  have hitem : Item " 'b'".toList "'b'".toList [] :=
    ⟨⟨[' '], .space .nil, by decide⟩, noGap_iff.mpr (by decide), by decide, '\'', by decide,
      by decide⟩
  refine ⟨hcont, (isExported_iff (by decide) hcont).mpr ?_⟩
  refine ⟨keyword ++ " -f a ".toList ++ ['\x7b'], " -f 'b'".toList, by simp, by decide, [' '],
    " 'b'".toList, "'b'".toList, .space .nil, by decide, by decide, by decide, .head hitem,
    .quoted ['b'] (.inr rfl)⟩

end ShellSurvey.Directive
