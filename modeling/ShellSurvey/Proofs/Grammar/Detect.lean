import Mathlib.Data.List.Forall2
import ShellSurvey.Grammar.Detect
import ShellSurvey.Proofs.Path
import ShellSurvey.Proofs.Text.Blank

/-!
# What makes a file a shell script

The two tests, each as a rule about what is written. `IsShellName` is the rule for the last part of
a path, so nothing before that part matters and no slash behind it (`isScriptPath_iff`,
`Path.name_append`). `NamesShell` is the rule for the words of a first line; of the words it only
looks at last parts, and at which of them are options (`interpreter?_congr`).
-/

namespace ShellSurvey.Grammar

/-! ### Names -/

/-- The name of a shell script: behind its last dot, which is neither its first nor its last
character, it has one of three endings in any case, or it is one of five names without an
ending. -/
def IsShellName (name : List Char) : Prop :=
  (∃ stem ending, name = stem ++ '.' :: ending ∧ stem ≠ [] ∧ ending ≠ [] ∧ '.' ∉ ending ∧
    Text.lower ('.' :: ending) ∈ [".sh".toList, ".bash".toList, ".zsh".toList]) ∨
  name ∈ [".bashrc".toList, ".bash_profile".toList, ".bash_aliases".toList, ".profile".toList,
    ".zshrc".toList]

theorem suffixes_eq : suffixes = [".sh".toList, ".bash".toList, ".zsh".toList] := by decide

theorem isSuffix_dot (ending : List Char) :
    isSuffix ('.' :: ending) = suffixes.contains (Text.lower ('.' :: ending)) := by
  have hlower : Text.lower ('.' :: ending) = '.' :: Text.lower ending := rfl
  rw [isSuffix, hlower]
  rfl

/-- The test of the name alone is that of `IsShellName`. -/
theorem isScriptPath_iff (path : Path) : isScriptPath path = true ↔ IsShellName path.name := by
  rw [isScriptPath, Bool.or_eq_true, List.contains_iff_mem, Path.suffix]
  refine or_congr ?_ Iff.rfl
  rcases Path.suffixOf_cases path.name with hnil | ⟨ending, hsuffix⟩
  · -- no dot that counts, and so no ending
    rw [hnil]
    refine iff_of_false (by simp) ?_
    rintro ⟨stem, ending, hname, hstem, hending, hdot, -⟩
    rw [Path.suffixOf_eq_cons_iff.mpr ⟨stem, hname, hstem, hending, hdot⟩] at hnil
    cases hnil
  · rw [hsuffix, isSuffix_dot, ← suffixes_eq]
    simp only [List.isEmpty_cons, Bool.not_false, Bool.true_and, List.contains_iff_mem]
    constructor
    · intro hlower
      obtain ⟨stem, hname, hstem, hending, hdot⟩ := Path.suffixOf_eq_cons_iff.mp hsuffix
      exact ⟨stem, ending, hname, hstem, hending, hdot, hlower⟩
    · rintro ⟨stem, other, hname, hstem, hother, hdot, hlower⟩
      rw [Path.suffixOf_eq_cons_iff.mpr ⟨stem, hname, hstem, hother, hdot⟩] at hsuffix
      obtain ⟨-, rfl⟩ := List.cons.inj hsuffix
      exact hlower

/-! ### First lines -/

/-- The name of a shell. -/
def IsShell (name : List Char) : Prop :=
  name ∈ ["sh".toList, "bash".toList, "dash".toList, "ksh".toList, "zsh".toList]

/-- Whether a word of a first line is an option. -/
def IsOption (word : List Char) : Prop := word.head? = some '-'

instance : DecidablePred IsOption := fun word =>
  inferInstanceAs (Decidable (word.head? = some '-'))

/-- The words of a first line name a shell: the last part of the first word is a shell, or it is
`env` and the last part of the first later word that is no option is a shell. -/
def NamesShell (word : List Char) (more : List (List Char)) : Prop :=
  IsShell (Path.ofChars word).name ∨
    (Path.ofChars word).name = "env".toList ∧ ∃ options argument others,
      more = options ++ argument :: others ∧ (∀ option ∈ options, IsOption option) ∧
      ¬IsOption argument ∧ IsShell (Path.ofChars argument).name

/-- The listed interpreters are the shells. -/
theorem contains_interpreters_iff {name : List Char} :
    interpreters.contains name = true ↔ IsShell name := by
  have htable : interpreters =
      ["sh".toList, "bash".toList, "dash".toList, "ksh".toList, "zsh".toList] := by decide
  rw [List.contains_iff_mem, htable, IsShell]

theorem not_isShell_finder : ¬IsShell finder := by
  rw [← contains_interpreters_iff]
  decide

/-- The argument is the first word that is no option. -/
theorem find?_argument_eq_some_iff {more : List (List Char)} {argument : List Char} :
    more.find? (fun word => word.head? != some '-') = some argument ↔
      ∃ options others, more = options ++ argument :: others ∧
        (∀ option ∈ options, IsOption option) ∧ ¬IsOption argument := by
  rw [List.find?_eq_some_iff_append]
  simp only [bne_iff_ne, Bool.not_eq_true', bne_eq_false_iff_eq, IsOption]
  constructor
  · rintro ⟨hargument, options, others, hmore, hoptions⟩
    exact ⟨options, others, hmore, hoptions, hargument⟩
  · rintro ⟨options, others, hmore, hoptions, hargument⟩
    exact ⟨hargument, options, others, hmore, hoptions⟩

/-- A line with words is decided by its first word and the words behind. -/
theorem isScriptLine_iff_namesShell {rest word : List Char} {more : List (List Char)}
    (h : Text.words rest = word :: more) :
    isScriptLine ('#' :: '!' :: rest) = true ↔ NamesShell word more := by
  rw [isScriptLine, interpreter?, h, NamesShell]
  by_cases hfinder : (Path.ofChars word).name = finder
  · simp only [hfinder, if_true]
    rw [or_iff_right not_isShell_finder]
    cases hfind : more.find? (fun argument => argument.head? != some '-') with
    | none =>
      refine iff_of_false (by simp) ?_
      rintro ⟨-, options, argument, others, hmore, hoptions, hargument, -⟩
      rw [find?_argument_eq_some_iff.mpr ⟨options, others, hmore, hoptions, hargument⟩] at hfind
      cases hfind
    | some argument =>
      simp only [Option.map_some, contains_interpreters_iff]
      constructor
      · intro hshell
        obtain ⟨options, others, hmore, hoptions, hargument⟩ := find?_argument_eq_some_iff.mp hfind
        exact ⟨rfl, options, argument, others, hmore, hoptions, hargument, hshell⟩
      · rintro ⟨-, options, other, others, hmore, hoptions, hother, hshell⟩
        rw [find?_argument_eq_some_iff.mpr ⟨options, others, hmore, hoptions, hother⟩] at hfind
        exact Option.some.inj hfind ▸ hshell
  · simp only [hfinder, if_false, contains_interpreters_iff]
    refine (or_iff_left ?_).symm
    rintro ⟨henv, -⟩
    exact hfinder henv

/-- Only a line with the two marks and a word has an interpreter. -/
theorem exists_of_interpreter? {line name : List Char} (h : interpreter? line = some name) :
    ∃ rest word more, line = '#' :: '!' :: rest ∧ Text.words rest = word :: more := by
  unfold interpreter? at h
  split at h
  · rename_i rest
    cases hwords : Text.words rest with
    | nil => simp [hwords] at h
    | cons word more => exact ⟨rest, word, more, rfl, hwords⟩
  · cases h

/-- A line names a shell exactly if words that do stand behind its first two characters. -/
theorem isScriptLine_iff (line : List Char) :
    isScriptLine line = true ↔ ∃ rest word more, line = '#' :: '!' :: rest ∧
      Text.Spaced (word :: more) rest ∧ NamesShell word more := by
  constructor
  · intro hline
    cases hname : interpreter? line with
    | none => simp [isScriptLine, hname] at hline
    | some name =>
      obtain ⟨rest, word, more, rfl, hwords⟩ := exists_of_interpreter? hname
      exact ⟨rest, word, more, rfl, Text.words_eq_iff.mp hwords,
        (isScriptLine_iff_namesShell hwords).mp hline⟩
  · rintro ⟨rest, word, more, rfl, hspaced, hshell⟩
    exact (isScriptLine_iff_namesShell hspaced.words_eq).mpr hshell

/-- Two words have the same last part, and both are options or neither is. -/
def Alike (word other : List Char) : Prop :=
  (Path.ofChars word).name = (Path.ofChars other).name ∧ (IsOption word ↔ IsOption other)

/-- Words that are alike have arguments of the same name. -/
theorem map_find?_of_alike {more others : List (List Char)} (h : List.Forall₂ Alike more others) :
    (more.find? fun word => word.head? != some '-').map (fun word => (Path.ofChars word).name) =
      (others.find? fun word => word.head? != some '-').map fun word =>
        (Path.ofChars word).name := by
  induction h with
  | nil => rfl
  | @cons word other _ _ halike _ ih =>
    obtain ⟨hname, hoption⟩ := halike
    have hsame : (word.head? != some '-') = (other.head? != some '-') := by
      rw [Bool.eq_iff_iff, bne_iff_ne, bne_iff_ne]
      exact not_congr hoption
    rw [List.find?_cons, List.find?_cons, hsame]
    split
    · exact congrArg some hname
    · exact ih

/-- The interpreter depends on the names of the words only. -/
theorem interpreter?_congr {text other first second : List Char} {more others : List (List Char)}
    (htext : Text.words text = first :: more) (hother : Text.words other = second :: others)
    (hfirst : (Path.ofChars first).name = (Path.ofChars second).name)
    (hmore : List.Forall₂ Alike more others) :
    interpreter? ('#' :: '!' :: text) = interpreter? ('#' :: '!' :: other) := by
  have hfind := map_find?_of_alike hmore
  simp only [interpreter?, htext, hother, hfirst, hfind]

/-- **What makes a file a shell script.** By its path it is one exactly if the last part has the
name of a shell script; so directories before that part, and slashes and dots behind it, change
nothing. By its first line it is one exactly if words that name a shell stand behind `#!`, with any
blanks around them; so neither the blanks nor the directories of the words change anything. The two
tests are independent. -/
theorem isScript_closed_form :
    (∀ path, isScriptPath path = true ↔ IsShellName path.name) ∧
    (∀ name, Path.IsName name → (Path.ofChars name).name = name) ∧
    (∀ front text back : List Char, (∀ c ∈ front.getLast?, c = '/') →
      (∀ c ∈ back.head?, c = '/') →
      (∀ piece ∈ Path.pieces back, piece = [] ∨ piece = ['.']) → (Path.ofChars text).parts ≠ [] →
      (Path.ofChars (front ++ text ++ back)).name = (Path.ofChars text).name ∧
        isScriptPath (Path.ofChars (front ++ text ++ back)) = isScriptPath (Path.ofChars text)) ∧
    (∀ line, isScriptLine line = true ↔ ∃ rest word more, line = '#' :: '!' :: rest ∧
      Text.Spaced (word :: more) rest ∧ NamesShell word more) ∧
    (∀ text other first second more others, Text.Spaced (first :: more) text →
      Text.Spaced (second :: others) other →
      (Path.ofChars first).name = (Path.ofChars second).name → List.Forall₂ Alike more others →
      isScriptLine ('#' :: '!' :: text) = isScriptLine ('#' :: '!' :: other)) ∧
    ∀ path line, isScript path line = true ↔
      isScriptPath path = true ∨ isScriptLine line = true := by
  refine ⟨isScriptPath_iff, fun name => Path.name_of_isName, ?_, isScriptLine_iff, ?_, ?_⟩
  · intro front text back hfront hback hempty hne
    have hname := Path.name_append hfront hback hempty hne
    refine ⟨hname, ?_⟩
    rw [Bool.eq_iff_iff, isScriptPath_iff, isScriptPath_iff, hname]
  · intro text other first second more others htext hother hfirst hmore
    rw [isScriptLine, isScriptLine,
      interpreter?_congr htext.words_eq hother.words_eq hfirst hmore]
  · intro path line
    rw [isScript, Bool.or_eq_true]

/-- Directories that go up, slashes and a dot around a path; and a line with a tab, a wide blank,
directories and a carriage return beside the plain one. -/
theorem isScript_closed_form_around :
    isScriptPath (Path.ofChars ("a/../".toList ++ "lib//Run.SH".toList ++ "//./".toList)) =
        isScriptPath (Path.ofChars "lib//Run.SH".toList) ∧
      isScriptLine ('#' :: '!' :: "\t/usr/bin/env\u3000-i  bin/bash\r".toList) =
        isScriptLine ('#' :: '!' :: "env -i bash".toList) := by
  have hblanks : Text.Spaced ["/usr/bin/env".toList, "-i".toList, "bin/bash".toList]
      "\t/usr/bin/env\u3000-i  bin/bash\r".toList := Text.words_eq_iff.mp (by decide)
  have hplain : Text.Spaced ["env".toList, "-i".toList, "bash".toList] "env -i bash".toList :=
    Text.words_eq_iff.mp (by decide)
  have halike : List.Forall₂ Alike ["-i".toList, "bin/bash".toList] ["-i".toList, "bash".toList] :=
    .cons ⟨rfl, Iff.rfl⟩ (.cons ⟨by decide, by decide⟩ .nil)
  exact ⟨(isScript_closed_form.2.2.1 _ _ _ (by simp) (by simp) (by decide) (by decide)).2,
    isScript_closed_form.2.2.2.2.1 _ _ _ _ _ _ hblanks hplain (by decide) halike⟩

end ShellSurvey.Grammar
