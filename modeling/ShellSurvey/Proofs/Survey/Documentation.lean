import ShellSurvey.Proofs.Survey.Comments
import ShellSurvey.Proofs.Text.Split

/-!
# Documentation of functions

A line is documented if a comment stands alone on it: with nothing but blank bytes before it, and
not as the interpreter line. Of several such comments on a line the last one counts.

The documentation of a function is the run of documented lines that ends right above it. The run
is collected backwards from there, so it is as long as it can be: the line before its first one is
not documented (`forall₂_runUpTo`). Where the line above the function is not documented there is no
run, and no documentation.
-/

namespace ShellSurvey.Survey

/-! ### Rows -/

/-- The rows of a source are its pieces between line breaks. -/
theorem getElem?_splitWhere_row (row : Nat) (bytes : List UInt8) :
    (Text.splitWhere (· == 10) bytes)[row]? =
      (rowFrom? row bytes).map fun rest => rest.takeWhile (· != 10) := by
  fun_induction rowFrom? row bytes with
  | case1 bytes =>
    obtain ⟨rest, hrest⟩ := Text.exists_splitWhere_eq (· == (10 : UInt8)) bytes
    rw [hrest]
    rfl
  | case2 row => rfl
  | case3 row rest ih =>
    rw [Text.splitWhere_cons, if_pos (beq_self_eq_true _), List.getElem?_cons_succ, ih]
  | case4 row byte rest hbyte ih =>
    rw [Text.splitWhere_cons, if_neg (by simpa using hbyte), ← ih]
    cases hpieces : Text.splitWhere (· == 10) rest with
    | nil => exact absurd hpieces (Text.splitWhere_ne_nil _ rest)
    | cons piece pieces => rfl

/-- A comment stands alone just if there are only blanks before it in its row. -/
theorem standsAlone_iff {bytes : List UInt8} {point : Point} :
    standsAlone bytes point ↔
      ∃ row, (Text.splitWhere (· == 10) bytes)[point.row]? = some row ∧
        ∀ byte ∈ row.take point.column, Text.isBlankByte byte := by
  rw [standsAlone, getElem?_splitWhere_row]
  cases rowFrom? point.row bytes with
  | none => simp
  | some rest => simp [isBlankBefore, List.take_takeWhile]

/-! ### Documented lines -/

/-- Whether a match is of a comment that stands alone on a line. Lines count from one. -/
structure CommentOn (bytes : List UInt8) (line : Nat) (captures : Captures) (comment : Capture) :
    Prop where
  /-- The match captures the comment. -/
  captured : captures.get? "doc.content" = some comment
  /-- The comment starts on the line. -/
  line_eq : comment.site.span.start.row + 1 = line
  /-- It is no interpreter line. -/
  ordinary : ¬(comment.site.span.start.row = 0 ∧ ['#', '!'] <+: comment.text.toList)
  /-- The line is one of the source, with nothing but blanks before the comment. -/
  alone : ∃ row, (Text.splitWhere (· == 10) bytes)[comment.site.span.start.row]? = some row ∧
    ∀ byte ∈ row.take comment.site.span.start.column, Text.isBlankByte byte

/-- Whether some comment stands alone on a line. -/
def Documented (bytes : List UInt8) (found : List Captures) (line : Nat) : Prop :=
  ∃ captures ∈ found, ∃ comment, CommentOn bytes line captures comment

/-- Whether the text is that of the last comment that stands alone on a line. -/
def DocumentedBy (bytes : List UInt8) (read : List Char → List Char) (found : List Captures)
    (line : Nat) (text : String) : Prop :=
  ∃ before captures after comment, found = before ++ captures :: after ∧
    CommentOn bytes line captures comment ∧
    (∀ later ∈ after, ∀ other, ¬CommentOn bytes line later other) ∧
    text = String.ofList (read comment.text.toList)

/-- Whether a remark stands alone on a line. -/
def Remark.isOn (line : Nat) (remark : Remark) : Bool :=
  remark.standalone && remark.comment.location.line == line

section Lines

variable {bytes : List UInt8} {file : String} {read : List Char → List Char}
  {found : List Captures} {line : Nat} {captures : Captures}

/-- The remark of a match stands alone on a line if the match is of such a comment. -/
theorem exists_remark?_iff {remark : Remark} :
    remark? bytes file read captures = some remark ∧ remark.isOn line ↔
      ∃ comment, CommentOn bytes line captures comment ∧
        remark = remarkOf file read comment true := by
  constructor
  · rintro ⟨hremark, hon⟩
    rw [Remark.isOn, Bool.and_eq_true, beq_iff_eq] at hon
    cases hget : captures.get? "doc.content" with
    | none =>
      rw [remark?, hget] at hremark
      cases hremark
    | some comment =>
      rw [remark?_of_get? hget] at hremark
      obtain ⟨hordinary, hsome⟩ := Option.ite_none_left_eq_some.mp hremark
      obtain rfl := Option.some.inj hsome
      have halone : standsAlone bytes comment.site.span.start := hon.1
      refine ⟨comment, ⟨hget, hon.2, ?_, standsAlone_iff.mp halone⟩, by rw [halone]⟩
      exact fun hline => hordinary (isInterpreterLine_iff.mpr hline)
  · rintro ⟨comment, hcomment, rfl⟩
    have hordinary : ¬isInterpreterLine comment.site.span.start comment.text.toList := fun hline =>
      hcomment.ordinary (isInterpreterLine_iff.mp hline)
    refine ⟨?_, by simp [Remark.isOn, remarkOf, Location.ofSpan, hcomment.line_eq]⟩
    rw [remark?_of_get? hcomment.captured, if_neg hordinary, standsAlone_iff.mpr hcomment.alone]

/-- The text of a line is sought among the matches from the last one on. -/
theorem lineText?_eq (bytes : List UInt8) (file : String) (read : List Char → List Char)
    (found : List Captures) (line : Nat) :
    lineText? (remarks bytes file read found) line =
      ((found.reverse.find? fun captures =>
        (remark? bytes file read captures).any (Remark.isOn line)).bind
          (remark? bytes file read)).map (·.comment.text) := by
  rw [lineText?, remarks, ← List.filterMap_reverse, List.find?_filterMap]
  rfl

/-- A remark is on a line just if a comment starts there that stands alone. -/
theorem any_remark?_iff :
    (remark? bytes file read captures).any (Remark.isOn line) ↔
      ∃ comment, CommentOn bytes line captures comment := by
  rw [Option.any_eq_true]
  constructor
  · rintro ⟨remark, hremark⟩
    obtain ⟨comment, hcomment, -⟩ := exists_remark?_iff.mp hremark
    exact ⟨comment, hcomment⟩
  · rintro ⟨comment, hcomment⟩
    exact ⟨_, exists_remark?_iff.mpr ⟨comment, hcomment, rfl⟩⟩

/-- The text of a line is that of the last comment that stands alone on it. -/
theorem lineText?_eq_some_iff {text : String} :
    lineText? (remarks bytes file read found) line = some text ↔
      DocumentedBy bytes read found line text := by
  rw [lineText?_eq]
  constructor
  · intro h
    obtain ⟨remark, hbind, rfl⟩ := Option.map_eq_some_iff.mp h
    obtain ⟨captures, hfind, hremark⟩ := Option.bind_eq_some_iff.mp hbind
    -- The search goes backwards: what it passes before the match comes after it.
    obtain ⟨hany, after, before, hsplit, hafter⟩ := List.find?_eq_some_iff_append.mp hfind
    obtain ⟨other, hother, hon⟩ := (Option.any_eq_true _ _).mp hany
    obtain rfl := Option.some.inj (hremark.symm.trans hother)
    obtain ⟨comment, hcomment, rfl⟩ := exists_remark?_iff.mp ⟨hremark, hon⟩
    refine ⟨before.reverse, captures, after.reverse, comment, ?_, hcomment, ?_, rfl⟩
    · rw [← List.reverse_reverse found, hsplit]
      simp
    · intro later hlater comment' hcomment'
      have hnot := hafter later (List.mem_reverse.mp hlater)
      rw [any_remark?_iff.mpr ⟨comment', hcomment'⟩] at hnot
      cases hnot
  · rintro ⟨before, captures, after, comment, rfl, hcomment, hafter, rfl⟩
    have hremark : remark? bytes file read captures = some (remarkOf file read comment true) :=
      (exists_remark?_iff.mpr ⟨comment, hcomment, rfl⟩).1
    have hfind : ((before ++ captures :: after).reverse.find? fun captures =>
        (remark? bytes file read captures).any (Remark.isOn line)) = some captures := by
      refine List.find?_eq_some_iff_append.mpr ⟨any_remark?_iff.mpr ⟨comment, hcomment⟩,
        after.reverse, before.reverse, by simp, fun later hlater => ?_⟩
      rw [Bool.not_eq_true', Bool.eq_false_iff, ne_eq, any_remark?_iff]
      rintro ⟨other, hother⟩
      exact hafter later (List.mem_reverse.mp hlater) other hother
    rw [hfind, Option.bind_some, hremark]
    rfl

/-- A line has a text just if it is documented. -/
theorem isSome_lineText?_iff :
    (lineText? (remarks bytes file read found) line).isSome ↔ Documented bytes found line := by
  constructor
  · intro h
    obtain ⟨text, htext⟩ := Option.isSome_iff_exists.mp h
    obtain ⟨before, captures, after, comment, rfl, hcomment, -⟩ := lineText?_eq_some_iff.mp htext
    exact ⟨captures, by simp, comment, hcomment⟩
  · rintro ⟨captures, hcaptures, comment, hcomment⟩
    have hsome : (found.reverse.find? fun captures =>
        (remark? bytes file read captures).any (Remark.isOn line)).isSome :=
      List.find?_isSome.mpr ⟨captures, List.mem_reverse.mpr hcaptures,
        any_remark?_iff.mpr ⟨comment, hcomment⟩⟩
    obtain ⟨last, hlast⟩ := Option.isSome_iff_exists.mp hsome
    have hany := (List.find?_eq_some_iff_append.mp hlast).1
    obtain ⟨remark, hremark, -⟩ := (Option.any_eq_true _ _).mp hany
    rw [lineText?_eq, hlast, Option.bind_some, hremark]
    rfl

theorem lineText?_eq_none_iff :
    lineText? (remarks bytes file read found) line = none ↔ ¬Documented bytes found line := by
  rw [← Option.not_isSome_iff_eq_none, isSome_lineText?_iff]

end Lines

/-! ### Blocks -/

/-- Whether the lines that pass a test and end at `last` begin with `first`. -/
structure IsBlock (documented : Nat → Prop) (first last : Nat) : Prop where
  /-- There is such a line. -/
  le : first ≤ last
  /-- All of the lines pass the test. -/
  all : ∀ line, first ≤ line → line ≤ last → documented line
  /-- The line before them does not. -/
  maximal : ¬documented (first - 1)

/-- A block is determined by its last line. -/
theorem IsBlock.unique {documented : Nat → Prop} {first other last : Nat}
    (h : IsBlock documented first last) (hother : IsBlock documented other last) :
    first = other := by
  have hle := h.le
  have hother_le := hother.le
  rcases Nat.lt_trichotomy first other with hlt | heq | hlt
  · exact absurd (h.all (other - 1) (by omega) (by omega)) hother.maximal
  · exact heq
  · exact absurd (hother.all (first - 1) (by omega) (by omega)) h.maximal

/-- A run that is collected backwards ends behind the first line without a text. -/
theorem forall₂_runUpTo {remarks : List Remark} (h : lineText? remarks 0 = none) (last : Nat) :
    ∃ before ≤ last, lineText? remarks before = none ∧
      (∀ line, before < line → line ≤ last → (lineText? remarks line).isSome) ∧
      List.Forall₂ (fun line text => lineText? remarks line = some text)
        (List.range' (before + 1) (last - before)) (runUpTo remarks last).reverse := by
  induction last with
  | zero => exact ⟨0, Nat.le_refl 0, h, fun line _ _ => by omega, .nil⟩
  | succ last ih =>
    rw [runUpTo]
    cases htext : lineText? remarks (last + 1) with
    | none =>
      refine ⟨last + 1, Nat.le_refl _, htext, fun line _ _ => by omega, ?_⟩
      rw [Nat.sub_self]
      exact .nil
    | some text =>
      -- The walk goes on below, and this text comes behind those that are found there.
      obtain ⟨before, hle, hbefore, hall, htexts⟩ := ih
      refine ⟨before, by omega, hbefore, fun line hlt hline => ?_, ?_⟩
      · rcases Nat.lt_or_eq_of_le hline with hline | rfl
        · exact hall line hlt (by omega)
        · rw [htext]
          rfl
      · have hlength : last + 1 - before = last - before + 1 := by omega
        have hlast : before + 1 + (last - before) = last + 1 := by omega
        rw [List.reverse_cons, hlength, List.range'_1_concat, hlast]
        exact List.rel_append htexts (.cons htext .nil)

/-! ### Documentation -/

section Doc

variable {bytes : List UInt8} {file : String} {read : List Char → List Char}
  {found : List Captures} {last : Nat}

theorem not_documented_zero (bytes : List UInt8) (found : List Captures) :
    ¬Documented bytes found 0 := by
  rintro ⟨captures, -, comment, hcomment⟩
  exact absurd hcomment.line_eq (Nat.succ_ne_zero _)

/-- What the documentation of something is, given the line right above it. -/
structure DocBelow (bytes : List UInt8) (read : List Char → List Char) (found : List Captures)
    (last : Nat) (doc : Option String) : Prop where
  /-- There is none just if the line above is not documented. -/
  eq_none_iff : doc = none ↔ ¬Documented bytes found last
  /-- If it is, the documented lines up to it have one beginning. -/
  existsUnique : Documented bytes found last →
    ∃! first, IsBlock (Documented bytes found) first last
  /-- The documentation is made of the texts of these lines, in their order. -/
  eq_some : ∀ first, IsBlock (Documented bytes found) first last →
    ∃ texts, List.Forall₂ (DocumentedBy bytes read found)
        (List.range' first (last + 1 - first)) texts ∧
      doc = some ("\n".intercalate texts)

/-- The lines are collected from below and put in order. -/
theorem docAbove_succ (remarks : List Remark) (last : Nat) :
    docAbove remarks (last + 1) =
      if runUpTo remarks last = [] then none
      else some ("\n".intercalate (runUpTo remarks last).reverse) := by
  rw [docAbove, Nat.add_sub_cancel]
  cases runUpTo remarks last with
  | nil => rfl
  | cons text texts => rfl

/-- **The comment block above a line is the run of documented lines that ends there.** -/
theorem docBelow_docAbove (bytes : List UInt8) (file : String) (read : List Char → List Char)
    (found : List Captures) (last : Nat) :
    DocBelow bytes read found last (docAbove (remarks bytes file read found) (last + 1)) := by
  -- Lines count from one, so that the walk back ends at line zero at the latest.
  have hzero : lineText? (remarks bytes file read found) 0 = none :=
    lineText?_eq_none_iff.mpr (not_documented_zero bytes found)
  obtain ⟨before, hle, hbefore, hall, htexts⟩ := forall₂_runUpTo hzero last
  rw [lineText?_eq_none_iff] at hbefore
  have hdocumented : Documented bytes found last ↔ before < last := by
    refine ⟨fun h => ?_, fun h => isSome_lineText?_iff.mp (hall last h (Nat.le_refl last))⟩
    exact Nat.lt_of_le_of_ne hle fun heq => hbefore (heq ▸ h)
  have hnil : runUpTo (remarks bytes file read found) last = [] ↔ ¬Documented bytes found last := by
    have hlength := htexts.length_eq
    rw [List.length_range', List.length_reverse] at hlength
    rw [← List.length_eq_zero_iff, ← hlength, hdocumented]
    omega
  have hblock : Documented bytes found last →
      IsBlock (Documented bytes found) (before + 1) last := fun h =>
    ⟨hdocumented.mp h, fun line hlt hline => isSome_lineText?_iff.mp (hall line hlt hline), hbefore⟩
  refine ⟨?_, fun h => ⟨before + 1, hblock h, fun other hother => hother.unique (hblock h)⟩, ?_⟩
  · rw [docAbove_succ, ← hnil]
    split_ifs with hempty
    · simp [hempty]
    · simp [hempty]
  · intro first hfirst
    have hlast := hfirst.all last hfirst.le (Nat.le_refl last)
    obtain rfl := hfirst.unique (hblock hlast)
    refine ⟨(runUpTo (remarks bytes file read found) last).reverse, ?_, ?_⟩
    · rw [Nat.add_sub_add_right]
      exact htexts.imp fun _ _ => lineText?_eq_some_iff.mp
    · rw [docAbove_succ, if_neg fun h => hnil.mp h hlast]

end Doc

/-! ### Functions with their documentation -/

theorem forall₂_filterMap {α β : Type} {r : α → β → Prop} {p : α → Bool}
    {f : α → Option β} {l : List α} (hpos : ∀ x ∈ l, p x → ∃ y, f x = some y ∧ r x y)
    (hneg : ∀ x ∈ l, ¬p x → f x = none) : List.Forall₂ r (l.filter p) (l.filterMap f) := by
  induction l with
  | nil => exact .nil
  | cons x l ih =>
    have ih := ih (fun y hy => hpos y (List.mem_cons_of_mem _ hy))
      (fun y hy => hneg y (List.mem_cons_of_mem _ hy))
    by_cases hx : p x
    · obtain ⟨y, hy, hr⟩ := hpos x List.mem_cons_self hx
      rw [List.filter_cons_of_pos hx, List.filterMap_cons_some hy]
      exact .cons hr ih
    · rw [List.filter_cons_of_neg hx, List.filterMap_cons_none (hneg x List.mem_cons_self hx)]
      exact ih

/-- **A function has the comment block right above it.** Every match with a name gives a function,
in order, and its documentation is what `DocBelow` says of the line above the part that places it:
none if that line is not documented, and else the texts of the documented lines up to there, as far
back as they go. -/
theorem doc_of_comment_block {grammar : Grammar} {read : List Char → List Char}
    (hread : grammar.transforms.comment = some read) {settings : ExtractionSettings}
    (hattach : settings.attachDocComments = true) (script : Script) (errorCount : Nat)
    (found : Found) :
    ∃ facts, readFacts grammar settings script errorCount found = .ok facts ∧
      List.Forall₂
        (fun captures function => ∃ anchor last,
          captures.first? ["function", "function.name"] = some anchor ∧
          function.location = Location.ofSpan script.file anchor.site.span ∧
          function.location.line = last + 1 ∧
          DocBelow script.bytes read (found .docComments) last function.doc)
        ((found .functions).filter fun captures => !(captures.textD "function.name" "").isEmpty)
        facts.functions := by
  have hremarks : allRemarks grammar.transforms script found =
      remarks script.bytes script.file read (found .docComments) := by
    rw [allRemarks, hread]
  refine ⟨_, readFacts_eq grammar settings script errorCount found, ?_⟩
  refine forall₂_filterMap (fun captures _ hname => ?_) (fun captures _ hname => ?_)
  · have hname : ¬(captures.textD "function.name" "").isEmpty := by simpa using hname
    obtain ⟨anchor, -, hanchor⟩ := readAnchor_eq hname
    refine ⟨_, by rw [function?, if_neg hname, hanchor, Option.map_some], anchor,
      anchor.site.span.start.row, hanchor, rfl, rfl, ?_⟩
    simp only [functionAt, hattach, if_true, hremarks]
    exact docBelow_docAbove script.bytes script.file read _ _
  · rw [function?, if_pos (by simpa using hname)]

/-- A script with two lines of comments above a function, the second one indented. -/
def documentedScript : Script :=
  Script.ofText "t.sh" "# a\n\t# b\nf() \x7b :; \x7d\n".toList

/-- The tree of the script, down to the parts of the function. -/
def documentedTree : Node :=
  ⟨"program", true, false, none, ⟨0, 20, ⟨0, 0⟩, ⟨3, 0⟩⟩,
    [Node.onFirstLine "comment" true none 0 3 [], Node.onRow 1 4 "comment" true none 5 8 [],
      Node.onRow 2 9 "function_definition" true none 9 19
        [Node.onRow 2 9 "word" true (some "name") 9 10 [],
          Node.onRow 2 9 "(" false none 10 11 [], Node.onRow 2 9 ")" false none 11 12 [],
          Node.onRow 2 9 "compound_statement" true (some "body") 13 19 []]]⟩

/-- The matches in the tree. -/
def documentedMatches : Found :=
  fun category => Query.run category documentedScript.bytes documentedTree

/-- Two comment lines right above a function are its documentation. -/
theorem doc_of_documented :
    Grammar.standard.transforms.comment = some Script.commentText ∧
      ({} : ExtractionSettings).attachDocComments = true ∧
      ∃ facts function, readFacts Grammar.standard {} documentedScript 0 documentedMatches =
          .ok facts ∧
        facts.functions = [function] ∧ function.doc = some "a\nb" ∧
        DocBelow documentedScript.bytes Script.commentText (documentedMatches .docComments) 2
          function.doc := by
  have hread : Grammar.standard.transforms.comment = some Script.commentText := rfl
  have hattach : ({} : ExtractionSettings).attachDocComments = true := rfl
  have hmatches : ((documentedMatches .functions).filter fun captures =>
      !(captures.textD "function.name" "").isEmpty) = documentedMatches .functions := by
    decide +kernel
  obtain ⟨facts, hfacts, hdocs⟩ :=
    doc_of_comment_block hread hattach documentedScript 0 documentedMatches
  rw [hmatches] at hdocs
  obtain ⟨function, rest, ⟨anchor, last, hanchor, hlocation, hline, hdoc⟩, hrest, hfunctions⟩ :=
    List.forall₂_cons_left_iff.mp hdocs
  obtain rfl := List.forall₂_nil_left_iff.mp hrest
  have hrow : anchor.site.span.start.row = 2 := by
    obtain rfl := Option.some.inj hanchor
    rfl
  obtain rfl : last = 2 := by
    rw [hlocation, Location.ofSpan, hrow] at hline
    exact (Nat.succ.inj hline).symm
  have hblock : facts.functions.map (·.doc) = [some "a\nb"] := by
    rw [readFacts_eq] at hfacts
    obtain rfl := Except.ok.inj hfacts
    decide +kernel
  rw [hfunctions, List.map_singleton] at hblock
  exact ⟨hread, hattach, facts, function, hfacts, hfunctions, (List.cons.inj hblock).1, hdoc⟩

end ShellSurvey.Survey
