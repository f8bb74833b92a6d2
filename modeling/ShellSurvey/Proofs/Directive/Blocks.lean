import Mathlib.Data.List.Infix
import ShellSurvey.Proofs.Directive.Words
import ShellSurvey.Proofs.Text.LineEnding
import ShellSurvey.Proofs.Text.Split

/-!
# Directives in blocks of a text

Some characters end every directive before them and let a command start behind them: line endings,
`;`, `&`, `|`, an opening parenthesis and a backquote (`isBreak`). Whatever reads a directive stops
at such a break, so the scan that comes to it has no memory of what it has read, and a source
exports what the texts on the two sides of a break export. Everything here follows from that one
equation, `isExported_append_break`.

* `isExported_blocks` — blocks of lines are searched one by one, so that their order is irrelevant;
* `isExported_unify` — the style of the line endings is irrelevant.

The one break that may fail is a line feed behind a backslash, which continues the line.
-/

namespace ShellSurvey.Directive

/-! ### Breaks -/

/-- Whether a character ends every directive before it and lets a command start behind it. -/
def isBreak (c : Char) : Bool :=
  endsWord c && endsDirective c && startsCommand (some c)

/-- The character ends the directives of the text before it: a break, and not one that a backslash
at the end of the text takes for a continued line. -/
structure Breaks (text : List Char) (c : Char) : Prop where
  isBreak : isBreak c
  ended : c = '\n' → text.getLast? ≠ some '\\'

variable {text : List Char} {c : Char}

theorem Breaks.endsWord (h : Breaks text c) : endsWord c :=
  (Bool.and_eq_true_iff.mp (Bool.and_eq_true_iff.mp h.isBreak).1).1

theorem Breaks.endsDirective (h : Breaks text c) : endsDirective c :=
  (Bool.and_eq_true_iff.mp (Bool.and_eq_true_iff.mp h.isBreak).1).2

theorem Breaks.startsCommand (h : Breaks text c) : startsCommand (some c) :=
  (Bool.and_eq_true_iff.mp h.isBreak).2

/-- What breaks a text breaks every back part of it. -/
theorem Breaks.of_suffix {tail : List Char} (h : Breaks text c) (hsuffix : tail <:+ text) :
    Breaks tail c where
  isBreak := h.isBreak
  ended hc hlast := by
    obtain ⟨front, rfl⟩ := hsuffix
    refine h.ended hc ?_
    rw [List.getLast?_append, hlast, Option.some_or]

/-- The keyword holds nothing that breaks a text. -/
theorem Breaks.not_mem_keyword (h : Breaks text c) : c ∉ keyword := by
  intro hmem
  have hinside := (show Word keyword [] by decide).inside c hmem
  rw [h.endsWord] at hinside
  cases hinside

/-! ### Reading up to a break -/

/-- No gap opens with a break or goes across one. -/
theorem dropGap_append_break (h : Breaks text c) (rest : List Char) :
    dropGap (text ++ c :: rest) = dropGap text ++ c :: rest := by
  have hspace : c ≠ ' ' := by
    rintro rfl
    exact absurd h.endsDirective (by decide)
  have htab : c ≠ '\t' := by
    rintro rfl
    exact absurd h.endsDirective (by decide)
  have hslash : c ≠ '\\' := by
    rintro rfl
    exact absurd h.endsWord (by decide)
  fun_induction dropGap text with
  | case1 text ih => exact ih (h.of_suffix (List.suffix_cons ' ' text))
  | case2 text ih => exact ih (h.of_suffix (List.suffix_cons '\t' text))
  | case3 text ih => exact ih (h.of_suffix ⟨['\\', '\n'], rfl⟩)
  | case4 text hnospace hnotab hnocontinued =>
    refine dropGap.eq_4 _ (fun more heq => ?_) (fun more heq => ?_) (fun more heq => ?_)
    · rcases List.append_eq_cons_iff.mp heq with ⟨-, hhead⟩ | ⟨front, htext, -⟩
      · exact hspace (List.cons.inj hhead).1
      · exact hnospace front htext
    · rcases List.append_eq_cons_iff.mp heq with ⟨-, hhead⟩ | ⟨front, htext, -⟩
      · exact htab (List.cons.inj hhead).1
      · exact hnotab front htext
    · rcases List.append_eq_cons_iff.mp heq with ⟨-, hhead⟩ | ⟨front, rfl, hfront⟩
      · exact hslash (List.cons.inj hhead).1
      · -- the backslash stands in the text, and either the break or the text has the line feed
        rcases List.append_eq_cons_iff.mp hfront.symm with ⟨rfl, hhead⟩ | ⟨front, rfl, -⟩
        · exact h.ended (List.cons.inj hhead).1 rfl
        · exact hnocontinued front rfl

/-- A word of a text stays a word if the text goes on behind a break. -/
theorem Word.append_break {w : List Char} (hword : Word w text) (h : Breaks text c)
    (rest : List Char) : Word w (text ++ c :: rest) where
  inside := hword.inside
  stop := Text.forall_head?_append_cons hword.stop h.endsWord rest

theorem Item.append_break {w more : List Char} (hitem : Item text w more) (h : Breaks text c)
    (rest : List Char) : Item (text ++ c :: rest) w (more ++ c :: rest) := by
  obtain ⟨gap, hgap, htext⟩ := hitem.split
  have hwhole : Breaks (w ++ more) c := h.of_suffix ⟨gap, htext.symm⟩
  have hmore : Breaks more c := hwhole.of_suffix ⟨w, rfl⟩
  refine ⟨⟨gap, hgap, ?_⟩, noGap_iff.mpr ?_, hitem.word.append_break hmore rest, hitem.opens⟩
  · rw [htext, List.append_assoc, List.append_assoc]
  · rw [← List.append_assoc, dropGap_append_break hwhole, noGap_iff.mp hitem.solid]

/-- The names of a text are read up to the break and no further. -/
theorem names_append_break (hb : Boundary text) (h : Breaks text c) (rest : List Char) :
    names (text ++ c :: rest) = ((names text).1, (names text).2 ++ c :: rest) := by
  induction hn : text.length using Nat.strong_induction_on generalizing text with
  | _ n ih =>
    have hboundary : Boundary (text ++ c :: rest) :=
      Text.forall_head?_append_cons hb h.endsWord rest
    rcases names_cases hb with ⟨heq, hend⟩ | ⟨w, more, hitem, heq⟩
    · have hgap := dropGap_append_break h rest
      have hstop : ∀ d ∈ (dropGap (text ++ c :: rest)).head?, endsDirective d :=
        hgap ▸ Text.forall_head?_append_cons hend h.endsDirective rest
      rw [heq, names_of_ended hboundary hstop, hgap]
    · obtain ⟨gap, -, htext⟩ := hitem.split
      have hmore : Breaks more c := h.of_suffix ⟨gap ++ w, by rw [htext, List.append_assoc]⟩
      have hnames := ih more.length (hn ▸ hitem.length_lt) hitem.word.boundary hmore rfl
      rw [heq, names_of_item hboundary (hitem.append_break h rest), hnames]

/-- A directive that is read before a break is read up to the break at most. -/
theorem read?_append_break (h : Breaks text c) (rest : List Char) :
    read? (text ++ c :: rest) =
      (read? text).map fun found => (found.1, found.2 ++ c :: rest) := by
  obtain ⟨gap, -, htext⟩ := exists_gap text
  have hstart : Breaks (dropGap text) c := h.of_suffix ⟨gap, htext.symm⟩
  have hbehind : Breaks (dropWord (dropGap text)) c := hstart.of_suffix (List.dropWhile_suffix _)
  have hword := (word_word (dropGap text)).append_break hbehind rest
  have hsplit : dropGap text ++ c :: rest =
      word (dropGap text) ++ (dropWord (dropGap text) ++ c :: rest) := by
    rw [← List.append_assoc, word_append_dropWord]
  have hfirst : word (dropGap text ++ c :: rest) = word (dropGap text) := by
    rw [hsplit, hword.word]
  have hdrop : dropWord (dropGap text ++ c :: rest) = dropWord (dropGap text) ++ c :: rest := by
    rw [hsplit, hword.dropWord]
  rw [read?, read?]
  simp only [dropGap_append_break h, hfirst, hdrop, List.length_append, Nat.add_right_cancel_iff,
    names_append_break (word_word _).boundary hbehind]
  split_ifs <;> rfl

/-! ### Scanning up to a break -/

/-- A keyword in front of a text stands before every character that it does not have. -/
theorem isPrefixOf_append_cons (hc : c ∉ keyword) (text rest : List Char) :
    keyword.isPrefixOf (text ++ c :: rest) = keyword.isPrefixOf text := by
  rw [Bool.eq_iff_iff, List.isPrefixOf_iff_prefix, List.isPrefixOf_iff_prefix]
  constructor
  · rintro ⟨after, heq⟩
    obtain ⟨middle, rfl, -⟩ := Text.exists_of_append_eq heq hc
    exact List.prefix_append keyword middle
  · exact fun hprefix => hprefix.trans (List.prefix_append text _)

variable {name : List Char}

/-- **The scan that comes to a break starts anew behind it.** What it is to pass over ends before
the break. -/
theorem isExportedFrom_append_break {skip : Nat} {before : Option Char} (h : Breaks text c)
    (hskip : skip ≤ text.length) (rest : List Char) :
    isExportedFrom name skip before (text ++ c :: rest) =
      (isExportedFrom name skip before text || isExportedFrom name 0 (some c) rest) := by
  induction text generalizing skip before with
  | nil =>
    obtain rfl : skip = 0 := Nat.le_zero.mp hskip
    have hprefix : keyword.isPrefixOf (c :: rest) = false :=
      isPrefixOf_append_cons h.not_mem_keyword [] rest
    rw [List.nil_append, isExportedFrom, isExportedFrom, hprefix, Bool.and_false, Bool.false_or]
    rfl
  | cons d text ih =>
    have htail : Breaks text c := h.of_suffix (List.suffix_cons d text)
    cases skip with
    | succ skip => exact ih htail (Nat.le_of_succ_le_succ hskip)
    | zero =>
      have hprefix := isPrefixOf_append_cons h.not_mem_keyword (d :: text) rest
      rw [List.cons_append] at hprefix ⊢
      rw [isExportedFrom, isExportedFrom, hprefix]
      split_ifs with hkey
      · obtain ⟨-, hkeyword⟩ := Bool.and_eq_true_iff.mp hkey
        have hlength : keyword.length ≤ (d :: text).length :=
          (List.isPrefixOf_iff_prefix.mp hkeyword).length_le
        have hread := read?_append_break
          (h.of_suffix (List.drop_suffix keyword.length (d :: text))) rest
        rw [← List.cons_append, List.drop_append_of_le_length hlength, hread]
        cases read? ((d :: text).drop keyword.length) with
        | none => exact ih htail (Nat.zero_le _)
        | some found =>
          simp only [Option.map_some, List.length_append, Nat.add_sub_add_right]
          rw [ih htail (Nat.sub_le _ _), Bool.or_assoc]
      · exact ih htail (Nat.zero_le _)

/-- Where a command can start, the scan goes on as at the beginning of a text. -/
theorem isExportedFrom_of_startsCommand {before : Option Char} (h : startsCommand before)
    (text : List Char) : isExportedFrom name 0 before text = isExportedFrom name 0 none text := by
  have hfront : startsCommand none = true := rfl
  cases text with
  | nil => rfl
  | cons d text => rw [isExportedFrom, isExportedFrom, h, hfront]

/-- **A source exports what the texts on the two sides of a break export.** -/
theorem isExported_append_break (h : Breaks text c) (rest : List Char) :
    isExported name (text ++ c :: rest) = (isExported name text || isExported name rest) := by
  rw [isExported, isExported, isExported, isExportedFrom_append_break h (Nat.zero_le _),
    isExportedFrom_of_startsCommand h.startsCommand, Bool.and_or_distrib_left]

@[simp] theorem isExported_nil : isExported name [] = false :=
  Bool.and_false _

/-- A break in front of a text changes nothing. -/
theorem isExported_cons_break (hc : isBreak c) (rest : List Char) :
    isExported name (c :: rest) = isExported name rest := by
  have hbreaks : Breaks [] c := ⟨hc, by simp⟩
  simpa using isExported_append_break hbreaks rest

/-! ### Blocks of lines -/

theorem breaks_newline (h : text.getLast? ≠ some '\\') : Breaks text '\n' :=
  ⟨by decide, fun _ => h⟩

/-- The names that lines export are those that one of them exports, unless a line is continued. -/
theorem isExported_joinWith {blocks : List (List Char)}
    (h : ∀ block ∈ blocks, block.getLast? ≠ some '\\') :
    isExported name (Text.joinWith '\n' blocks) = blocks.any (isExported name) := by
  induction blocks with
  | nil => exact isExported_nil
  | cons block blocks ih =>
    have hblock := h block List.mem_cons_self
    have ih := ih fun other hother => h other (List.mem_cons_of_mem block hother)
    rw [List.any_cons, ← ih]
    cases blocks with
    | nil => rw [Text.joinWith, Text.joinWith, isExported_nil, Bool.or_false]
    | cons next rest =>
      rw [Text.joinWith, isExported_append_break (breaks_newline hblock)]
      exact List.cons_ne_nil next rest

/-- **Directives are sought block by block.** A line feed keeps the directives before it and behind
it apart, unless a backslash continues the last line before it; so the order of blocks does not
matter. -/
theorem isExported_blocks {first : List Char} (h : first.getLast? ≠ some '\\')
    (name second : List Char) :
    isExported name (first ++ '\n' :: second) =
        (isExported name first || isExported name second) ∧
      ∀ blocks others : List (List Char), (∀ block ∈ blocks, block.getLast? ≠ some '\\') →
        blocks.Perm others → isExported name (Text.joinWith '\n' others) =
          isExported name (Text.joinWith '\n' blocks) := by
  refine ⟨isExported_append_break (breaks_newline h) second, fun blocks others hblocks hperm => ?_⟩
  have hothers : ∀ block ∈ others, block.getLast? ≠ some '\\' := fun block hblock =>
    hblocks block (hperm.mem_iff.mpr hblock)
  rw [isExported_joinWith hblocks, isExported_joinWith hothers, hperm.any_eq]

/-- The first block ends in a directive without names, and the second one starts with what could be
one of them. -/
theorem isExported_blocks_unfinished :
    (keyword ++ " -f".toList).getLast? ≠ some '\\' ∧
      isExported ['g'] ((keyword ++ " -f".toList) ++ '\n' :: ['g']) = false ∧
      isExported ['g'] (Text.joinWith '\n' ["g() (:)".toList, keyword ++ " -f g".toList]) =
        isExported ['g'] (Text.joinWith '\n' [keyword ++ " -f g".toList, "g() (:)".toList]) := by
  have hlast : (keyword ++ " -f".toList).getLast? ≠ some '\\' := by decide
  have hblocks := isExported_blocks hlast ['g'] ['g']
  exact ⟨hlast, hblocks.1.trans (by decide +kernel), hblocks.2 _ _ (by decide) (by decide)⟩

/-! ### Line endings -/

/-- **The style of line endings does not matter**, where no backslash stands right before a carriage
return. Before a line feed one may stand: that line is continued in every style. -/
theorem isExported_unify {source : List Char} (h : ¬['\\', '\r'] <:+: source) (name : List Char) :
    isExported name source = isExported name (Text.unify source) := by
  -- on the length, cut at the first carriage return: behind it a line feed may go as well
  induction hn : source.length using Nat.strong_induction_on generalizing source with
  | _ n ih =>
    by_cases hreturn : '\r' ∈ source
    · obtain ⟨front, rest, rfl, hfront⟩ := List.eq_append_cons_of_mem hreturn
      obtain ⟨behind, hunify, hrest⟩ := Text.exists_unify_return rest
      have hlast : front.getLast? ≠ some '\\' := by
        intro hslash
        obtain ⟨before, rfl⟩ := List.getLast?_eq_some_iff.mp hslash
        exact h ⟨before, rest, by simp⟩
      have hbehind : isExported name rest = isExported name behind := by
        rcases hrest with rfl | rfl
        · rfl
        · exact isExported_cons_break (by decide) behind
      have hsuffix : behind <:+ rest := by
        rcases hrest with rfl | rfl
        · exact List.suffix_rfl
        · exact List.suffix_cons '\n' behind
      have hinner : ¬['\\', '\r'] <:+: behind := fun hslash =>
        h (hslash.trans (hsuffix.trans ⟨front ++ ['\r'], by simp⟩).isInfix)
      have hlength : behind.length < n := by
        have hle := hsuffix.length_le
        rw [List.length_append, List.length_cons] at hn
        omega
      have hbreak : Breaks front '\r' := ⟨by decide, by simp⟩
      rw [Text.unify_append hfront, hunify, isExported_append_break hbreak,
        isExported_append_break (breaks_newline hlast), hbehind,
        ih behind.length hlength hinner rfl]
    · rw [Text.unify_of_not_mem hreturn]

/-- Carriage returns alone and with a line feed, around a continued line. -/
theorem isExported_unify_mixed :
    ¬['\\', '\r'] <:+: "f() (:)\r\n".toList ++ keyword ++ " -f \\\n f\r:".toList ∧
      isExported ['f'] ("f() (:)\r\n".toList ++ keyword ++ " -f \\\n f\r:".toList) =
        isExported ['f'] ("f() (:)\n".toList ++ keyword ++ " -f \\\n f\n:".toList) := by
  have hslash :
      ¬['\\', '\r'] <:+: "f() (:)\r\n".toList ++ keyword ++ " -f \\\n f\r:".toList := by
    decide
  exact ⟨hslash, isExported_unify hslash ['f']⟩

end ShellSurvey.Directive
