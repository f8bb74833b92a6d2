import ShellSurvey.Proofs.Directive.Blocks
import ShellSurvey.Proofs.Directive.Exported

/-!
# Directives with any separators

A directive can be written with separators of blanks and continued lines in any mixture: one behind
the keyword, one behind the flag and one between any two names (`Listing`). The names are read back,
and nothing else, if every separator behind the flag or behind a name opens with a blank.

The keyword may be followed by a continued line at once, the flag and the names may not. A backslash
right behind a word is read as a part of the word, so the line feed after it is no continuation and
ends the directive: `isExported_listing_continued` is the smallest case. `isExported_listing` has
both directions. That a separator opens with a blank is also necessary, if the names are distinct
and none of them could open a directive of its own.
-/

namespace ShellSurvey.Directive

/-! ### Directives as they are written -/

/-- A gap with a blank in it. -/
structure Separator (sep : List Char) : Prop where
  gap : Gap sep
  blank : ' ' ∈ sep ∨ '\t' ∈ sep

/-- A name that stands for itself in a list: a word without quotes, backslashes or comment signs. -/
structure PlainName (name : List Char) : Prop where
  nonempty : name ≠ []
  inside : ∀ c ∈ name, endsWord c = false
  plain : ∀ c ∈ name, c ∉ ['"', '\'', '\\', '#']

theorem plainName_iff {name : List Char} :
    PlainName name ↔ name ≠ [] ∧ (name.all fun c => !endsWord c) ∧
      name.all fun c => c ∉ ['"', '\'', '\\', '#'] := by
  have hinside : (∀ c ∈ name, endsWord c = false) ↔ name.all fun c => !endsWord c := by simp
  have hplain : (∀ c ∈ name, c ∉ ['"', '\'', '\\', '#']) ↔
      name.all fun c => c ∉ ['"', '\'', '\\', '#'] := by
    simp
  rw [← hinside, ← hplain]
  exact ⟨fun h => ⟨h.nonempty, h.inside, h.plain⟩, fun h => ⟨h.1, h.2.1, h.2.2⟩⟩

instance (name : List Char) : Decidable (PlainName name) :=
  decidable_of_iff _ plainName_iff.symm

/-- A name with the separator in front of it. -/
structure Entry where
  sep : List Char
  name : List Char
  separator : Separator sep
  plainName : PlainName name

/-- The text of entries, one behind the other. -/
def entriesText (entries : List Entry) : List Char :=
  entries.flatMap fun entry => entry.sep ++ entry.name

/-- A directive: a separator behind the keyword, the flag, and at least one entry. -/
structure Listing where
  sep : List Char
  entries : List Entry
  separator : Separator sep
  nonempty : entries ≠ []

/-- The directive as it is written. -/
def Listing.text (listing : Listing) : List Char :=
  keyword ++ (listing.sep ++ (flag ++ entriesText listing.entries))

/-- The names that are listed. -/
def Listing.names (listing : Listing) : List (List Char) :=
  listing.entries.map (·.name)

/-- The separator of an entry opens with a blank, and not with a continued line. -/
def Entry.Spaced (entry : Entry) : Prop :=
  entry.sep.head? ≠ some '\\'

/-! ### Entries -/

theorem Separator.ne_nil {sep : List Char} (h : Separator sep) : sep ≠ [] := by
  rintro rfl
  rcases h.blank with hmem | hmem <;> cases hmem

theorem entriesText_append (first second : List Entry) :
    entriesText (first ++ second) = entriesText first ++ entriesText second :=
  List.flatMap_append

theorem entriesText_cons (entry : Entry) (entries : List Entry) :
    entriesText (entry :: entries) = entry.sep ++ (entry.name ++ entriesText entries) :=
  List.append_assoc _ _ _

theorem Entry.Spaced.boundary {entry : Entry} (h : entry.Spaced) (rest : List Char) :
    Boundary (entry.sep ++ rest) := by
  intro c hc
  obtain ⟨d, sep, hsep⟩ := List.exists_cons_of_ne_nil entry.separator.ne_nil
  have hcont : ∀ more, entry.sep ++ rest ≠ '\\' :: '\n' :: more := by
    intro more heq
    rw [hsep, List.cons_append] at heq
    exact h (by rw [hsep, (List.cons.inj heq).1]; rfl)
  obtain ⟨e, more, heq, he⟩ :=
    entry.separator.gap.endsWord_head entry.separator.ne_nil hcont
  rw [heq] at hc
  obtain rfl : e = c := Option.some_inj.mp hc
  exact he

/-- A list of names begins where a word can end. -/
theorem boundary_entriesText {entries : List Entry} (h : ∀ entry ∈ entries, entry.Spaced)
    {tail : List Char} (htail : Boundary tail) : Boundary (entriesText entries ++ tail) := by
  cases entries with
  | nil => exact htail
  | cons entry entries =>
    rw [entriesText_cons, List.append_assoc]
    exact (h entry List.mem_cons_self).boundary _

/-- What ends a directive ends a word, comment signs apart. -/
theorem endsWord_of_endsDirective {c : Char} (h : endsDirective c) (hsign : c ≠ '#') :
    endsWord c := by
  rw [endsDirective, List.contains_iff_mem] at h
  rw [endsWord, List.contains_iff_mem]
  simp only [List.mem_cons, hsign, List.not_mem_nil, or_false] at h
  rcases h with rfl | rfl | rfl | rfl | rfl | rfl | rfl | rfl | rfl | rfl <;> decide

variable {name : List Char}

theorem PlainName.slash_not_mem (h : PlainName name) : '\\' ∉ name :=
  fun hmem => h.plain _ hmem (by decide)

theorem PlainName.exists_head (h : PlainName name) :
    ∃ c more, name = c :: more ∧ endsWord c = false ∧ endsDirective c = false ∧ c ≠ '\\' := by
  obtain ⟨c, more, rfl⟩ := List.exists_cons_of_ne_nil h.nonempty
  have hword := h.inside c List.mem_cons_self
  have hsign : c ≠ '#' := by
    rintro rfl
    exact h.plain '#' List.mem_cons_self (by decide)
  refine ⟨c, more, rfl, hword, ?_, fun hslash => h.slash_not_mem (hslash ▸ List.mem_cons_self)⟩
  by_contra hend
  rw [Bool.not_eq_false] at hend
  rw [endsWord_of_endsDirective hend hsign] at hword
  cases hword

/-- No gap begins a plain name. -/
theorem PlainName.noGap (h : PlainName name) (rest : List Char) : NoGap (name ++ rest) := by
  obtain ⟨c, more, rfl, hword, -, hslash⟩ := h.exists_head
  have hspace : c ≠ ' ' := by
    rintro rfl
    exact absurd hword (by decide)
  have htab : c ≠ '\t' := by
    rintro rfl
    exact absurd hword (by decide)
  refine noGap_iff.mpr (dropGap.eq_4 _ ?_ ?_ ?_)
  · exact fun _ heq => hspace (List.cons.inj heq).1
  · exact fun _ heq => htab (List.cons.inj heq).1
  · exact fun _ heq => hslash (List.cons.inj heq).1

/-- A word that starts like a name has no quotes to remove. -/
theorem PlainName.unquote {w : List Char} (h : PlainName name) (hw : name <+: w) :
    Text.unquote w = w := by
  obtain ⟨ending, rfl⟩ := hw
  obtain ⟨c, more, rfl⟩ := List.exists_cons_of_ne_nil h.nonempty
  refine Text.unquote_bare fun q inner hq heq => h.plain c List.mem_cons_self ?_
  obtain ⟨rfl, -⟩ := List.cons.inj heq
  rcases hq with rfl | rfl <;> decide

/-- A word that starts like a name is the next one behind a separator. -/
theorem PlainName.item {sep w rest : List Char} (h : PlainName name) (hw : name <+: w)
    (hsep : Separator sep) (hword : Word w rest) : Item (sep ++ (w ++ rest)) w rest := by
  obtain ⟨ending, rfl⟩ := hw
  refine ⟨⟨sep, hsep.gap, rfl⟩, ?_, hword, ?_⟩
  · rw [List.append_assoc]
    exact h.noGap _
  · obtain ⟨c, more, rfl, -, hend, -⟩ := h.exists_head
    exact ⟨c, rfl, hend⟩

/-! ### Reading entries -/

/-- **Spaced entries are read one by one.** -/
theorem names_entriesText {entries : List Entry} (h : ∀ entry ∈ entries, entry.Spaced)
    {tail : List Char} (htail : Boundary tail) :
    names (entriesText entries ++ tail) =
      (entries.map (·.name) ++ (names tail).1, (names tail).2) := by
  induction entries with
  | nil => rfl
  | cons entry entries ih =>
    have hentries : ∀ other ∈ entries, other.Spaced := fun other hother =>
      h other (List.mem_cons_of_mem entry hother)
    have hword : Word entry.name (entriesText entries ++ tail) :=
      ⟨entry.plainName.inside, boundary_entriesText hentries htail⟩
    have hitem := entry.plainName.item List.prefix_rfl entry.separator hword
    have hboundary := boundary_entriesText h htail
    rw [entriesText_cons, List.append_assoc, List.append_assoc] at hboundary ⊢
    rw [names_of_item hboundary hitem, ih hentries, entry.plainName.unquote List.prefix_rfl,
      List.map_cons, List.cons_append]

/-- The last name takes the backslash of a continued line behind it, and its line feed ends the
list. -/
theorem names_entriesText_continued {entries : List Entry} {entry : Entry}
    (h : ∀ other ∈ entries, other.Spaced) (hentry : entry.Spaced) (rest : List Char) :
    (names (entriesText (entries ++ [entry]) ++ '\\' :: '\n' :: rest)).1 =
      entries.map (·.name) ++ [entry.name ++ ['\\']] := by
  have hword : Word (entry.name ++ ['\\']) ('\n' :: rest) := by
    refine ⟨fun c hc => ?_, by simp; decide⟩
    rcases List.mem_append.mp hc with hc | hc
    · exact entry.plainName.inside c hc
    · obtain rfl := List.mem_singleton.mp hc
      decide
  have htail : Boundary (entry.sep ++ (entry.name ++ ['\\'] ++ '\n' :: rest)) := hentry.boundary _
  have hended : names ('\n' :: rest) = ([], '\n' :: rest) :=
    names_of_ended hword.boundary (by simp [dropGap]; decide)
  have hsplit : entriesText (entries ++ [entry]) ++ '\\' :: '\n' :: rest =
      entriesText entries ++ (entry.sep ++ (entry.name ++ ['\\'] ++ '\n' :: rest)) := by
    simp [entriesText]
  have hname : entry.name <+: entry.name ++ ['\\'] := List.prefix_append _ _
  have hitem := entry.plainName.item hname entry.separator hword
  rw [hsplit, names_entriesText h htail, names_of_item htail hitem, hended,
    entry.plainName.unquote hname]

/-! ### A keyword among the names -/

/-- A gap and a plain name have no character in common. -/
theorem Gap.not_mem_of_plainName {gap : List Char} (h : Gap gap) (hname : PlainName name) {c : Char}
    (hc : c ∈ gap) : c ∉ name := by
  intro hmem
  have hinside := hname.inside c hmem
  have hplain := hname.plain c hmem
  have hgap := h.mem hc
  simp only [List.mem_cons, List.not_mem_nil, or_false] at hgap
  rcases hgap with rfl | rfl | rfl | rfl
  · exact absurd hinside (by decide)
  · exact absurd hinside (by decide)
  · exact hplain (by decide)
  · exact absurd hinside (by decide)

theorem plainName_keyword : PlainName keyword := by
  decide

/-- A keyword that starts inside of a name ends inside of it, as a separator stands behind. -/
theorem exists_of_keyword_append {entries : List Entry} {more after : List Char}
    (h : keyword ++ after = more ++ entriesText entries) :
    ∃ v, more = keyword ++ v ∧ after = v ++ entriesText entries := by
  cases entries with
  | nil => exact ⟨after, by simpa [entriesText] using h.symm, by simp [entriesText]⟩
  | cons entry entries =>
    obtain ⟨c, sep, hsep⟩ := List.exists_cons_of_ne_nil entry.separator.ne_nil
    have hc : c ∉ keyword := entry.separator.gap.not_mem_of_plainName plainName_keyword
      (hsep ▸ List.mem_cons_self)
    rw [entriesText_cons, hsep, List.cons_append] at h ⊢
    exact Text.exists_of_append_eq h hc

/-- A keyword among entries with a gap behind it is the end of a name. -/
theorem exists_name_of_keyword {entries : List Entry} {front gap rest : List Char} (hgap : Gap gap)
    (hne : gap ≠ []) (h : entriesText entries = front ++ (keyword ++ (gap ++ rest))) :
    ∃ entry ∈ entries, keyword <:+ entry.name := by
  induction entries generalizing front with
  | nil =>
    have hlength := congrArg List.length h
    simp [entriesText, keyword] at hlength
  | cons entry entries ih =>
    rw [entriesText_cons] at h
    obtain ⟨middle, -, hmiddle⟩ := Text.exists_of_append_eq h entry.separator.gap.not_mem_e
    rcases List.append_eq_append_iff.mp hmiddle with ⟨more, -, hrest⟩ | ⟨more, hname, hkey⟩
    · -- the keyword stands behind the name
      obtain ⟨other, hother, hsuffix⟩ := ih hrest
      exact ⟨other, List.mem_cons_of_mem entry hother, hsuffix⟩
    · -- the keyword starts in the name, and what follows it there would stand in the gap
      obtain ⟨v, rfl, hv⟩ := exists_of_keyword_append hkey
      refine ⟨entry, List.mem_cons_self, middle, ?_⟩
      cases v with
      | nil => rw [hname, List.append_nil]
      | cons c v =>
        obtain ⟨d, gap, rfl⟩ := List.exists_cons_of_ne_nil hne
        obtain ⟨rfl, -⟩ := List.cons.inj hv
        refine absurd ?_ (hgap.not_mem_of_plainName entry.plainName List.mem_cons_self)
        rw [hname]
        simp

/-! ### Directives with a continued line behind a word -/

/-- Only a continued line separates names without a space. -/
theorem exists_of_not_spaced {entry : Entry} (h : ¬entry.Spaced) :
    ∃ sep, entry.sep = '\\' :: '\n' :: sep := by
  have hgap := entry.separator.gap
  have hhead : entry.sep.head? = some '\\' := not_not.mp h
  generalize entry.sep = sep at hgap hhead
  cases hgap with
  | nil => cases hhead
  | space => cases hhead
  | tab => cases hhead
  | @continued gap => exact ⟨gap, rfl⟩

/-- A directive does not list a name behind a continued line that follows a word at once. -/
theorem not_directiveFor_of_continued {sep rest : List Char} {entries : List Entry}
    (hsep : Separator sep) (h : ∀ entry ∈ entries, entry.Spaced) (hname : PlainName name)
    (hnew : name ∉ entries.map (·.name)) :
    ¬DirectiveFor name (sep ++ (flag ++ (entriesText entries ++ '\\' :: '\n' :: rest))) := by
  intro hdirective
  obtain ⟨found, hread, hmem⟩ := directiveFor_iff.mp hdirective
  obtain ⟨gap, listed, hgap, -, htext, hflag, rfl⟩ := exists_of_read? hread
  obtain rfl : entriesText entries ++ '\\' :: '\n' :: rest = listed := by
    have hdrop := congrArg dropGap htext
    rw [dropGap_eq_of_noGap hsep.gap (noGap_flag _), dropGap_eq_of_noGap hgap (noGap_flag _)]
      at hdrop
    exact List.append_cancel_left hdrop
  rcases List.eq_nil_or_concat' entries with rfl | ⟨init, last, rfl⟩
  · -- the backslash stands right behind the flag
    exact absurd (hflag.boundary '\\' rfl) (by decide)
  · have hinit : ∀ entry ∈ init, entry.Spaced := fun entry hentry =>
      h entry (List.mem_append_left [last] hentry)
    have hlast : last.Spaced := h last (List.mem_append_right init (List.mem_singleton_self last))
    rw [names_entriesText_continued hinit hlast] at hmem
    rcases List.mem_append.mp hmem with hmem | hmem
    · rw [List.map_append] at hnew
      exact hnew (List.mem_append_left _ hmem)
    · obtain rfl := List.mem_singleton.mp hmem
      exact hname.slash_not_mem (by simp)

/-- Nothing behind a continued line that follows a word at once is exported, unless a name opens a
directive of its own. -/
theorem not_isExported_text {listing : Listing} {before after : List Entry} {entry : Entry}
    (hsplit : listing.entries = before ++ entry :: after)
    (hbefore : ∀ other ∈ before, other.Spaced) (hentry : ¬entry.Spaced)
    (hnew : entry.name ∉ before.map (·.name))
    (hkeyword : ∀ other ∈ listing.entries, ¬keyword <:+ other.name) :
    ¬isExported entry.name listing.text := by
  intro hexported
  obtain ⟨-, hfrom⟩ := Bool.and_eq_true_iff.mp hexported
  obtain ⟨front, behind, htext, -, -, hdirective⟩ := occurs_of_isExportedFrom hfrom
  by_cases hfront : front = []
  · subst hfront
    obtain ⟨sep, hsep⟩ := exists_of_not_spaced hentry
    have hbehind : behind = listing.sep ++ (flag ++ (entriesText before ++
        '\\' :: '\n' :: (sep ++ (entry.name ++ entriesText after)))) := by
      have hcancel := (List.append_cancel_left htext).symm
      rwa [hsplit, entriesText_append, entriesText_cons, hsep, List.cons_append,
        List.cons_append] at hcancel
    rw [hbehind] at hdirective
    exact not_directiveFor_of_continued listing.separator hbefore entry.plainName hnew hdirective
  · obtain ⟨middle, -, hlisted⟩ := exists_behind_flag listing.separator.gap htext hfront
    obtain ⟨gap, rest, -, hgap, hne, rfl, -⟩ := hdirective
    obtain ⟨other, hother, hsuffix⟩ := exists_name_of_keyword hgap hne hlisted
    exact hkeyword other hother hsuffix

/-! ### Directives in a text -/

theorem isExportedFrom_of_length_le {text : List Char} {skip : Nat} {before : Option Char}
    (h : text.length ≤ skip) : isExportedFrom name skip before text = false := by
  induction text generalizing skip before with
  | nil => rfl
  | cons c text ih =>
    cases skip with
    | zero => cases h
    | succ skip => exact ih (Nat.le_of_succ_le_succ h)

/-- A directive up to the end of the text exports what it lists. -/
theorem isExported_keyword_append {after : List Char} {listed : List (List Char)}
    (h : read? after = some (listed, [])) :
    isExported name (keyword ++ after) = (!name.isEmpty && listed.contains name) := by
  have hprefix : keyword.isPrefixOf (keyword ++ after) :=
    List.isPrefixOf_iff_prefix.mpr (List.prefix_append keyword after)
  have hdrop : (keyword ++ after).drop keyword.length = after := List.drop_left
  have hfront : startsCommand none = true := rfl
  rw [keyword_append] at hprefix hdrop ⊢
  rw [isExported, isExportedFrom, hprefix, hdrop, h, hfront]
  simp [isExportedFrom_of_length_le]

/-- A list exports the names that are written in it, and no others. -/
theorem Listing.isExported_text {listing : Listing}
    (h : ∀ entry ∈ listing.entries, entry.Spaced) :
    isExported name listing.text ↔ name ∈ listing.names := by
  have hend : Boundary [] := by simp [Boundary]
  have hnone : Directive.names [] = ([], []) := names_of_ended hend (by simp [dropGap])
  have hboundary : Boundary (entriesText listing.entries ++ []) := boundary_entriesText h hend
  have hnames := names_entriesText h hend
  rw [List.append_nil] at hboundary hnames
  have hflag : Word flag [] := by decide
  have hread := read?_eq_some listing.separator.gap listing.separator.ne_nil
    ⟨hflag.inside, hboundary⟩
  rw [hnames, hnone, List.append_nil] at hread
  rw [Listing.text, isExported_keyword_append hread, Bool.and_eq_true, List.contains_iff_mem,
    Listing.names, and_iff_right_iff_imp]
  intro hmem
  obtain ⟨entry, -, rfl⟩ := List.mem_map.mp hmem
  simpa using entry.plainName.nonempty

/-- A list does not end with a continued line. -/
theorem Listing.getLast?_text (listing : Listing) : listing.text.getLast? ≠ some '\\' := by
  rcases List.eq_nil_or_concat' listing.entries with hnil | ⟨init, last, hentries⟩
  · exact absurd hnil listing.nonempty
  · have htext : listing.text =
        (keyword ++ (listing.sep ++ (flag ++ (entriesText init ++ last.sep)))) ++ last.name := by
      rw [Listing.text, hentries, entriesText_append, entriesText_cons]
      simp [entriesText]
    rw [htext, List.getLast?_append_of_ne_nil _ last.plainName.nonempty]
    intro hlast
    exact last.plainName.slash_not_mem (List.mem_of_getLast? hlast)

/-- The scan passes over lines without a keyword, be the last of them continued or not. -/
theorem isExportedFrom_append_newline {block : List Char} {before : Option Char}
    (h : ¬keyword <:+: block) (rest : List Char) :
    isExportedFrom name 0 before (block ++ '\n' :: rest) =
      isExportedFrom name 0 (some '\n') rest := by
  induction block generalizing before with
  | nil =>
    have hnone : keyword.isPrefixOf ('\n' :: rest) = false :=
      isPrefixOf_append_cons (by decide) [] rest
    rw [List.nil_append, isExportedFrom, hnone, Bool.and_false]
    rfl
  | cons c block ih =>
    have hnone : keyword.isPrefixOf (c :: block ++ '\n' :: rest) = false := by
      rw [isPrefixOf_append_cons (by decide), Bool.eq_false_iff, ne_eq, List.isPrefixOf_iff_prefix]
      exact fun hfront => h hfront.isInfix
    rw [List.cons_append] at hnone ⊢
    rw [isExportedFrom, hnone, Bool.and_false]
    exact ih fun hlater => h (hlater.trans (List.suffix_cons c block).isInfix)

/-- A line without the keyword exports nothing. -/
theorem isExported_append_newline {block : List Char} (h : ¬keyword <:+: block)
    (rest : List Char) : isExported name (block ++ '\n' :: rest) = isExported name rest := by
  rw [isExported, isExported, isExportedFrom_append_newline h,
    isExportedFrom_of_startsCommand (by decide)]

/-- What may stand in front of a directive: nothing, or lines. The last of them is not continued,
unless there is no keyword in them. -/
inductive Lead : List Char → Prop
  | start : Lead []
  | lines {block : List Char} : block.getLast? ≠ some '\\' → Lead (block ++ ['\n'])
  | silent {block : List Char} : ¬keyword <:+: block → Lead (block ++ ['\n'])

/-- What may stand behind a directive: nothing, or something behind a line feed or a semicolon. -/
inductive Trail : List Char → Prop
  | stop : Trail []
  | newline (rest : List Char) : Trail ('\n' :: rest)
  | semicolon (rest : List Char) : Trail (';' :: rest)

/-- Where a list stands among other text, it adds its own names to theirs. -/
theorem Listing.isExported_placed (listing : Listing) {front back : List Char} (hfront : Lead front)
    (hback : Trail back) :
    isExported name (front ++ (listing.text ++ back)) =
      (isExported name front || (isExported name listing.text || isExported name back)) := by
  have hbehind : isExported name (listing.text ++ back) =
      (isExported name listing.text || isExported name back) := by
    cases hback with
    | stop => rw [List.append_nil, isExported_nil, Bool.or_false]
    | newline rest =>
      rw [isExported_append_break (breaks_newline listing.getLast?_text),
        isExported_cons_break (by decide)]
    | semicolon rest =>
      have hbreak : Breaks listing.text ';' := ⟨by decide, by simp⟩
      rw [isExported_append_break hbreak, isExported_cons_break (by decide)]
  cases hfront with
  | start => rw [List.nil_append, isExported_nil, Bool.false_or, hbehind]
  | lines hblock =>
    rw [List.append_assoc, List.singleton_append, isExported_append_break (breaks_newline hblock),
      isExported_append_break (breaks_newline hblock), isExported_nil, Bool.or_false, hbehind]
  | silent hblock =>
    rw [List.append_assoc, List.singleton_append, isExported_append_newline hblock,
      isExported_append_newline hblock, isExported_nil, Bool.false_or, hbehind]

/-- Where not all entries are spaced there is a first one. -/
theorem exists_first_not_spaced {entries : List Entry}
    (h : ¬∀ entry ∈ entries, entry.Spaced) :
    ∃ before entry after, entries = before ++ entry :: after ∧
      (∀ other ∈ before, other.Spaced) ∧ ¬entry.Spaced := by
  induction entries with
  | nil => simp at h
  | cons entry entries ih =>
    by_cases hentry : entry.Spaced
    · have hlater : ¬∀ other ∈ entries, other.Spaced := fun hall =>
        h (List.forall_mem_cons.mpr ⟨hentry, hall⟩)
      obtain ⟨before, other, after, rfl, hbefore, hother⟩ := ih hlater
      exact ⟨entry :: before, other, after, rfl, List.forall_mem_cons.mpr ⟨hentry, hbefore⟩, hother⟩
    · exact ⟨[], entry, entries, rfl, by simp, hentry⟩

/-- **Separators of a directive are free as long as they open with a blank.** Behind the keyword
every separator will do. If those behind the flag and the names open with a blank, the directive
exports the names listed and nothing else. Conversely, if distinct names that open no directive of
their own are exported by it, then all of these separators open with a blank. -/
theorem isExported_listing (listing : Listing) {front back : List Char} (hfront : Lead front)
    (hback : Trail back) :
    ((∀ entry ∈ listing.entries, entry.Spaced) → ∀ name,
      (isExported name (front ++ (listing.text ++ back)) ↔
        name ∈ listing.names ∨ isExported name front ∨ isExported name back)) ∧
    (listing.names.Nodup →
      (∀ name ∈ listing.names, ¬keyword <:+ name ∧ ¬isExported name front ∧
        ¬isExported name back) →
      (∀ name ∈ listing.names, isExported name (front ++ (listing.text ++ back))) →
      ∀ entry ∈ listing.entries, entry.Spaced) := by
  refine ⟨fun hspaced name => ?_, fun hnodup hapart hexported => ?_⟩
  · rw [listing.isExported_placed hfront hback, Bool.or_eq_true, Bool.or_eq_true,
      Listing.isExported_text hspaced, or_left_comm]
  · by_contra hnot
    -- the first name behind a continued line is not listed
    obtain ⟨before, entry, after, hsplit, hbefore, hentry⟩ := exists_first_not_spaced hnot
    have hmem : ∀ other ∈ listing.entries, other.name ∈ listing.names := fun other hother =>
      List.mem_map_of_mem hother
    have hlisted : entry.name ∈ listing.names := hmem entry (by simp [hsplit])
    have hnew : entry.name ∉ before.map (·.name) := by
      rw [Listing.names, hsplit, List.map_append, List.map_cons, List.nodup_append] at hnodup
      exact fun hearlier => hnodup.2.2 _ hearlier _ List.mem_cons_self rfl
    have htext : ¬isExported entry.name listing.text :=
      not_isExported_text hsplit hbefore hentry hnew fun other hother =>
        (hapart _ (hmem other hother)).1
    obtain ⟨-, hfrontFree, hbackFree⟩ := hapart _ hlisted
    have hwhole := hexported _ hlisted
    rw [listing.isExported_placed hfront hback, Bool.or_eq_true, Bool.or_eq_true] at hwhole
    rcases hwhole with hwhole | hwhole | hwhole
    · exact hfrontFree hwhole
    · exact htext hwhole
    · exact hbackFree hwhole

/-- A directive for one name, with the given separator behind its flag. -/
def singleListing (sep : List Char) (separator : Separator sep) : Listing where
  sep := [' ']
  entries := [⟨sep, ['f'], separator, by decide⟩]
  separator := ⟨.space .nil, by decide⟩
  nonempty := List.cons_ne_nil _ _

/-- A blank and two continued lines behind the flag. -/
def spacedListing : Listing :=
  singleListing " \\\n\\\n".toList ⟨.space (.continued (.continued .nil)), by decide⟩

/-- Between other commands, the name is exported. -/
theorem isExported_listing_spaced :
    spacedListing.text = keyword ++ " -f \\\n\\\nf".toList ∧
      isExported ['f'] ("f\n".toList ++ (spacedListing.text ++ ";f".toList)) := by
  have hspaced : ∀ entry ∈ spacedListing.entries, entry.Spaced := by
    intro entry hentry
    obtain rfl := List.mem_singleton.mp hentry
    simp [Entry.Spaced]
  have hfront : Lead ("f".toList ++ ['\n']) := .lines (by decide)
  have hlisted := (isExported_listing spacedListing hfront (.semicolon ['f'])).1 hspaced ['f']
  exact ⟨by decide, hlisted.mpr (.inl (by decide))⟩

/-- A continued line and a blank behind the flag. -/
def continuedListing : Listing :=
  singleListing "\\\n ".toList ⟨.continued (.space .nil), by decide⟩

/-- **A continued line right behind the flag hides the directive**, although a blank follows. -/
theorem isExported_listing_continued :
    continuedListing.text = keyword ++ " -f\\\n f".toList ∧ ['f'] ∈ continuedListing.names ∧
      isExported ['f'] continuedListing.text = false := by
  decide +kernel

end ShellSurvey.Directive
