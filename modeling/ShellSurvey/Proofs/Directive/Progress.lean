import Mathlib.Logic.Relation
import ShellSurvey.Proofs.Directive.Exported

/-!
# Reading directives comes to an end

Two loops read the directives of a source, and this module follows them round by round.

* `round` — one round of reading the names of a directive. It may end the list, read a word, or
  find something without a gap before it. The last never happens: a round starts where a word ends,
  and whatever ends a word is a blank or ends the directive (`round_cases`). So every other round
  reads a word that is not empty, and the text that is left gets shorter.
* `search` — one round of looking for directives, from one place of the source to a later one
  (`lt_of_search`). The scan of a source is what these rounds come to (`settles_scanAt`).

`Reads` and `Settles` are finite runs of rounds, so that a run that is there has come to its end.
-/

namespace ShellSurvey.Directive

/-! ### Rounds of reading names -/

/-- What a round of reading names comes to. -/
inductive Round where
  /-- The list has ended in front of a text. -/
  | ended (rest : List Char)
  /-- Something follows without a gap. -/
  | stuck
  /-- A word was read, in front of a text. -/
  | read (word rest : List Char)
  deriving DecidableEq

/-- One round of reading names. -/
def round (text : List Char) : Round :=
  match dropGap text with
  | [] => .ended []
  | c :: more =>
    if endsDirective c then .ended (c :: more)
    else if (c :: more).length = text.length then .stuck
    else .read (word (c :: more)) (dropWord (c :: more))

/-- The names of a text are read round by round. -/
theorem names_eq_round (text : List Char) :
    names text =
      match round text with
      | .ended rest => ([], rest)
      | .stuck => ([], text)
      | .read w rest => (Text.unquote w :: (names rest).1, (names rest).2) := by
  rw [names, round]
  cases h : dropGap text with
  | nil => rfl
  | cons c more =>
    simp only
    split_ifs <;> rfl

/-- At a boundary, a gap stands before the next word. -/
theorem Item.exists_gap {text w rest : List Char} (h : Item text w rest) (hb : Boundary text) :
    ∃ gap, gap ≠ [] ∧ text = gap ++ (w ++ rest) := by
  obtain ⟨gap, -, hsplit⟩ := h.split
  refine ⟨gap, ?_, hsplit⟩
  rintro rfl
  obtain ⟨c, hc, -⟩ := h.opens
  obtain ⟨more, rfl⟩ := List.head?_eq_some_iff.mp hc
  have hends : endsWord c = true := hb c (by rw [hsplit]; rfl)
  rw [h.word.inside c List.mem_cons_self] at hends
  cases hends

theorem Item.ne_nil {text w rest : List Char} (h : Item text w rest) : w ≠ [] := by
  rintro rfl
  obtain ⟨c, hc, -⟩ := h.opens
  cases hc

/-- One round reads the first name of the list. -/
theorem Item.round {text w rest : List Char} (h : Item text w rest) (hb : Boundary text) :
    Directive.round text = .read w rest := by
  obtain ⟨gap, hgap, hsplit⟩ := h.exists_gap hb
  have hpos := List.length_pos_of_ne_nil hgap
  have hlength : (w ++ rest).length ≠ text.length := by
    rw [hsplit]
    simp only [List.length_append]
    omega
  obtain ⟨c, hc, hopens⟩ := h.opens
  obtain ⟨more, rfl⟩ := List.head?_eq_some_iff.mp hc
  rw [List.cons_append] at hlength
  rw [Directive.round, h.dropGap, List.cons_append]
  simp only [hopens, Bool.false_eq_true, if_false, hlength]
  rw [← List.cons_append, h.word.word, h.word.dropWord]

/-- **What a round that starts where a word ends can do**: end the list, or read a word behind a
gap. -/
theorem round_cases {text : List Char} (hb : Boundary text) :
    (round text = .ended (dropGap text) ∧ ∀ c ∈ (dropGap text).head?, endsDirective c) ∨
      ∃ w rest, round text = .read w rest ∧ Item text w rest := by
  rcases names_cases hb with ⟨-, hend⟩ | ⟨w, rest, hitem, -⟩
  · refine .inl ⟨?_, hend⟩
    rw [round]
    cases h : dropGap text with
    | nil => rfl
    | cons c more =>
      have hc : endsDirective c = true := hend c (by rw [h]; rfl)
      simp only [hc, if_true]
  · exact .inr ⟨w, rest, hitem.round hb, hitem⟩

/-- What a round reads is the first name of the list. -/
theorem item_of_round {text w rest : List Char} (hb : Boundary text)
    (h : round text = .read w rest) : Item text w rest := by
  rcases round_cases hb with ⟨hended, -⟩ | ⟨v, more, hread, hitem⟩
  · rw [h] at hended
    cases hended
  · obtain ⟨rfl, rfl⟩ := Round.read.inj (h.symm.trans hread)
    exact hitem

-- Inside of a word a round would be stuck.
example : round ['a'] = .stuck := rfl

/-- The rounds from a text on come to another text. -/
def Reaches : List Char → List Char → Prop :=
  Relation.ReflTransGen fun text rest => ∃ w, round text = .read w rest

/-- The scan stands where a word can end after every round. -/
theorem Reaches.boundary {text cursor : List Char} (h : Reaches text cursor) (hb : Boundary text) :
    Boundary cursor := by
  induction h with
  | refl => exact hb
  | tail _ hstep ih =>
    obtain ⟨w, hread⟩ := hstep
    exact (item_of_round ih hread).word.boundary

/-- A round gets on: it is not stuck, and unless it ends the list it reads a word that is not empty
and comes to what stands behind that word. -/
def GetsOn (text : List Char) : Prop :=
  round text ≠ .stuck ∧ ∀ w rest, round text = .read w rest →
    w ≠ [] ∧ w ++ rest <:+ text ∧ rest.length < text.length

/-- Where a word can end, a round reads something or finds the end. -/
theorem getsOn_of_boundary {text : List Char} (hb : Boundary text) : GetsOn text := by
  refine ⟨fun hstuck => ?_, fun w rest hread => ?_⟩
  · rcases round_cases hb with ⟨hended, -⟩ | ⟨w, rest, hread, -⟩
    · rw [hstuck] at hended
      cases hended
    · rw [hstuck] at hread
      cases hread
  · have hitem := item_of_round hb hread
    obtain ⟨gap, -, hsplit⟩ := hitem.split
    exact ⟨hitem.ne_nil, ⟨gap, hsplit.symm⟩, hitem.length_lt⟩

/-- The rounds from a text on read a list of names, and end in front of `rest`. -/
inductive Reads : List Char → List (List Char) → List Char → Prop
  | ended {text rest : List Char} : round text = .ended rest → Reads text [] rest
  | read {text w more rest : List Char} {listed : List (List Char)} :
      round text = .read w more → Reads more listed rest →
      Reads text (Text.unquote w :: listed) rest

/-- Reading names from a boundary on comes to an end. -/
theorem reads_names {text : List Char} (hb : Boundary text) :
    Reads text (names text).1 (names text).2 := by
  induction hn : text.length using Nat.strong_induction_on generalizing text with
  | _ n ih =>
    rw [names_eq_round]
    rcases round_cases hb with ⟨hend, -⟩ | ⟨w, rest, hread, hitem⟩
    · rw [hend]
      exact .ended hend
    · rw [hread]
      exact .read hread (ih rest.length (hn ▸ hitem.length_lt) hitem.word.boundary rfl)

/-- Where the names of a directive are read from, given the text behind its keyword. -/
def namesFrom (text : List Char) : List Char :=
  dropWord (dropGap text)

theorem boundary_namesFrom (text : List Char) : Boundary (namesFrom text) :=
  (word_word (dropGap text)).boundary

/-- The names of a directive are read one after the other from behind the flag. -/
theorem reads_of_read? {text after : List Char} {listed : List (List Char)}
    (h : read? text = some (listed, after)) : Reads (namesFrom text) listed after := by
  have hreads := reads_names (boundary_namesFrom text)
  rw [read?] at h
  split_ifs at h
  rw [namesFrom, Option.some_inj.mp h] at hreads
  exact hreads

/-! ### The end of a directive -/

/-- A list of names ends with the text, or in front of what ends the directive. -/
theorem Reads.exists_end {text rest : List Char} {listed : List (List Char)}
    (h : Reads text listed rest) (hb : Boundary text) :
    ∃ front, text = front ++ rest ∧ ∀ c ∈ rest.head?, endsDirective c := by
  induction h with
  | @ended text rest hround =>
    rcases round_cases hb with ⟨hended, hstop⟩ | ⟨w, more, hread, -⟩
    · obtain rfl := Round.ended.inj (hround.symm.trans hended)
      obtain ⟨gap, -, hsplit⟩ := exists_gap text
      exact ⟨gap, hsplit, hstop⟩
    · rw [hround] at hread
      cases hread
  | @read text w more rest listed hround _ ih =>
    have hitem := item_of_round hb hround
    obtain ⟨front, hmore, hstop⟩ := ih hitem.word.boundary
    obtain ⟨gap, -, hsplit⟩ := hitem.split
    refine ⟨gap ++ (w ++ front), ?_, hstop⟩
    rw [List.append_assoc, List.append_assoc, ← hmore, ← hsplit]

/-- A directive that is read behind a place of a source ends at a later place. -/
structure EndsAt (source : List Char) (pos : Nat) (after : List Char) (stop : Nat) : Prop where
  rest : after = source.drop stop
  behind : pos < stop
  within : stop ≤ source.length
  ended : stop = source.length ∨ ∃ c, source[stop]? = some c ∧ endsDirective c

/-- The position behind a directive is told by what is left of the source. -/
theorem endsAt_of_read? {source after : List Char} {pos : Nat} {listed : List (List Char)}
    (h : read? (source.drop pos) = some (listed, after)) :
    EndsAt source pos after (source.length - after.length) := by
  obtain ⟨gap, rest, -, hgap, hsplit, hflag, hnames⟩ := exists_of_read? h
  have hreads := reads_names hflag.boundary
  rw [← hnames] at hreads
  obtain ⟨front, hfront, hend⟩ := hreads.exists_end hflag.boundary
  have hpos := List.length_pos_of_ne_nil hgap
  have hdrop : source.drop pos = gap ++ (flag ++ front) ++ after := by
    rw [hsplit, hfront, List.append_assoc, List.append_assoc]
  have hlength := congrArg List.length hdrop
  simp only [List.length_drop, List.length_append] at hlength
  have hplace : source.length - after.length = pos + (gap ++ (flag ++ front)).length := by
    simp only [List.length_append]
    omega
  have hafter : after = source.drop (source.length - after.length) := by
    rw [hplace, ← List.drop_drop, hdrop, List.drop_left]
  refine ⟨hafter, by omega, Nat.sub_le _ _, ?_⟩
  cases after with
  | nil => exact .inl (Nat.sub_zero _)
  | cons c more =>
    refine .inr ⟨c, ?_, hend c rfl⟩
    rw [← Nat.add_zero (source.length - _), ← List.getElem?_drop, ← hafter]
    rfl

/-! ### Rounds of looking for directives -/

/-- What a round of looking for directives comes to. -/
inductive Search where
  /-- It is settled whether the name is exported. -/
  | settled (exported : Bool)
  /-- The search goes on from a place. -/
  | next (pos : Nat)
  deriving DecidableEq

/-- The first place, from `pos` on, at which the keyword stands. -/
def keywordFrom? (source : List Char) (pos : Nat) : Option Nat :=
  (List.range' pos (source.length - pos)).find? fun place =>
    keyword.isPrefixOf (source.drop place)

/-- What a round comes to at a place where the keyword stands. -/
def searchAt (name source : List Char) (place : Nat) : Search :=
  if startsCommand (source.take place).getLast? then
    match read? (source.drop (place + keyword.length)) with
    | none => .next (place + keyword.length)
    | some (listed, after) =>
      if listed.contains name then .settled true else .next (source.length - after.length)
  else .next (place + keyword.length)

/-- One round of looking for a directive that lists the name, from `pos` on. -/
def search (name source : List Char) (pos : Nat) : Search :=
  match keywordFrom? source pos with
  | none => .settled false
  | some place => searchAt name source place

/-- The rounds from a place on settle whether the name is exported. -/
inductive Settles (name source : List Char) : Nat → Bool → Prop
  | now {pos : Nat} {exported : Bool} :
      search name source pos = .settled exported → Settles name source pos exported
  | later {pos later : Nat} {exported : Bool} :
      search name source pos = .next later → Settles name source later exported →
      Settles name source pos exported

variable {name source : List Char} {pos place : Nat}

/-- The search finds the first place of the keyword. -/
theorem keywordFrom?_eq_some (h : keywordFrom? source pos = some place) :
    pos ≤ place ∧ keyword.isPrefixOf (source.drop place) ∧
      ∀ earlier, pos ≤ earlier → earlier < place →
        keyword.isPrefixOf (source.drop earlier) = false := by
  obtain ⟨hkey, hmem, hfirst⟩ := List.find?_range'_eq_some.mp h
  refine ⟨(List.mem_range'_1.mp hmem).1, hkey, fun earlier hle hlt => ?_⟩
  simpa using hfirst earlier hle hlt

/-- The search fails only if the keyword is nowhere. -/
theorem keywordFrom?_eq_none (h : keywordFrom? source pos = none) :
    ∀ place, pos ≤ place → place < source.length →
      keyword.isPrefixOf (source.drop place) = false := by
  intro place hle hlt
  simpa using List.find?_range'_eq_none.mp h place hle (by omega)

/-- A round that goes on from a keyword comes behind it, and not behind the source. -/
theorem lt_of_searchAt (h : keyword.isPrefixOf (source.drop place)) {later : Nat}
    (hnext : searchAt name source place = .next later) :
    place < later ∧ later ≤ source.length := by
  have hfit := (List.isPrefixOf_iff_prefix.mp h).length_le
  have hsize : 0 < keyword.length := by decide
  rw [List.length_drop] at hfit
  have hbehind : place < place + keyword.length ∧ place + keyword.length ≤ source.length := by omega
  rw [searchAt] at hnext
  split_ifs at hnext
  · split at hnext
    case h_1 =>
      obtain rfl := Search.next.inj hnext
      exact hbehind
    case h_2 listed after hread =>
      split_ifs at hnext
      obtain rfl := Search.next.inj hnext
      have hends := endsAt_of_read? hread
      exact ⟨Nat.lt_trans hbehind.1 hends.behind, hends.within⟩
  · obtain rfl := Search.next.inj hnext
    exact hbehind

/-- **A round of the search gets on**: it is settled, or goes on from a later place. -/
theorem lt_of_search {later : Nat} (h : search name source pos = .next later) :
    pos < later ∧ later ≤ source.length := by
  rw [search] at h
  cases hkey : keywordFrom? source pos with
  | none =>
    rw [hkey] at h
    cases h
  | some place =>
    rw [hkey] at h
    obtain ⟨hle, hplace, -⟩ := keywordFrom?_eq_some hkey
    obtain ⟨hlt, hwithin⟩ := lt_of_searchAt hplace h
    exact ⟨Nat.lt_of_le_of_lt hle hlt, hwithin⟩

/-- No keyword starts inside of another. -/
theorem isPrefixOf_inside (h : keyword.isPrefixOf (source.drop place)) {inner : Nat}
    (hlt : place < inner) (hinside : inner < place + keyword.length) :
    keyword.isPrefixOf (source.drop inner) = false := by
  by_contra hkey
  rw [Bool.not_eq_false] at hkey
  obtain ⟨k, rfl⟩ := Nat.exists_eq_add_of_le hlt
  have hdrop : source.drop (place + 1 + k) = ((source.drop place).drop 1).drop k := by
    rw [List.drop_drop, List.drop_drop, Nat.add_assoc]
  have hsplit := List.take_append_drop k ((source.drop place).drop 1)
  rw [← hdrop, keyword_append_drop hkey, keyword_append, keyword_append_drop h, keyword_append,
    List.drop_succ_cons, List.drop_zero] at hsplit
  -- the rest of a keyword has no first letter of one
  obtain ⟨middle, hmiddle, -⟩ := Text.exists_of_append_eq hsplit.symm (by decide)
  have hlength := congrArg List.length hmiddle
  have hsize : keyword.length = 6 := rfl
  simp only [List.length_take, List.length_append, List.length_cons, List.length_nil] at hlength
  omega

/-! ### The scan of a source, place by place -/

/-- What the scan of a source finds from a place on. -/
def scanAt (name source : List Char) (pos : Nat) : Bool :=
  isExportedFrom name 0 (source.take pos).getLast? (source.drop pos)

theorem scanAt_of_length_le (h : source.length ≤ pos) : scanAt name source pos = false := by
  rw [scanAt, List.drop_eq_nil_of_le h]
  rfl

/-- Leaving out characters is scanning from a later position. -/
theorem isExportedFrom_skip (skip : Nat) :
    isExportedFrom name skip (source.take pos).getLast? (source.drop pos) =
      scanAt name source (pos + skip) := by
  induction skip generalizing pos with
  | zero => rfl
  | succ skip ih =>
    rcases Nat.lt_or_ge pos source.length with hlt | hge
    · have hlast : (source.take (pos + 1)).getLast? = some source[pos] := by
        rw [List.take_succ_eq_append_getElem hlt, List.getLast?_concat]
      rw [List.drop_eq_getElem_cons hlt, isExportedFrom, ← hlast, ih]
      congr 1
      omega
    · rw [List.drop_eq_nil_of_le hge, scanAt_of_length_le (by omega)]
      rfl

/-- The scan passes over a place at which no keyword stands. -/
theorem scanAt_succ (h : keyword.isPrefixOf (source.drop pos) = false) :
    scanAt name source pos = scanAt name source (pos + 1) := by
  rw [← isExportedFrom_skip 1, scanAt]
  cases hdrop : source.drop pos with
  | nil => rfl
  | cons c rest =>
    rw [hdrop] at h
    rw [isExportedFrom, isExportedFrom, h, Bool.and_false]
    rfl

/-- The scan runs over everything up to the next keyword. -/
theorem scanAt_of_no_keyword (hle : pos ≤ place)
    (h : ∀ earlier, pos ≤ earlier → earlier < place →
      keyword.isPrefixOf (source.drop earlier) = false) :
    scanAt name source pos = scanAt name source place := by
  induction place, hle using Nat.le_induction with
  | base => rfl
  | succ place hle ih =>
    have hplace := h place hle (Nat.lt_succ_self place)
    rw [ih fun earlier hpos hlt => h earlier hpos (Nat.lt_succ_of_lt hlt), scanAt_succ hplace]

/-- What the scan finds, once a round has come to something. -/
def Search.verdict (name source : List Char) : Search → Bool
  | .settled exported => exported
  | .next later => scanAt name source later

/-- Where a keyword stands, the scan does what a round of the search does. -/
theorem scanAt_eq_searchAt (h : keyword.isPrefixOf (source.drop place)) :
    scanAt name source place = (searchAt name source place).verdict name source := by
  have hbehind : scanAt name source (place + 1) = scanAt name source (place + keyword.length) :=
    scanAt_of_no_keyword (Nat.add_le_add_left (by decide) place) fun inner hlt hinside =>
      isPrefixOf_inside h hlt hinside
  rw [← isExportedFrom_skip 1] at hbehind
  rw [scanAt, searchAt]
  cases hdrop : source.drop place with
  | nil => rw [hdrop] at h; cases h
  | cons c rest =>
    rw [hdrop] at h hbehind
    rw [isExportedFrom, h, Bool.and_true, ← hdrop, List.drop_drop]
    split_ifs with hstart
    · cases hread : read? (source.drop (place + keyword.length)) with
      | none => exact hbehind
      | some found =>
        obtain ⟨listed, after⟩ := found
        have hends := (endsAt_of_read? hread).behind
        have hlength := congrArg List.length hdrop
        rw [List.length_drop, List.length_cons] at hlength
        have hskip : place + (rest.length - after.length + 1) = source.length - after.length := by
          omega
        have hlater := @isExportedFrom_skip name source place (rest.length - after.length + 1)
        rw [hskip, hdrop, isExportedFrom] at hlater
        dsimp only
        rw [hlater]
        cases listed.contains name with
        | true => rfl
        | false => rfl
    · exact hbehind

/-- **A round of the search keeps the verdict of the scan.** -/
theorem scanAt_eq_search (name source : List Char) (pos : Nat) :
    scanAt name source pos = (search name source pos).verdict name source := by
  rw [search]
  cases hkey : keywordFrom? source pos with
  | none =>
    rcases Nat.lt_or_ge pos source.length with hlt | hge
    · rw [scanAt_of_no_keyword (Nat.le_of_lt hlt) (keywordFrom?_eq_none hkey)]
      exact scanAt_of_length_le (Nat.le_refl _)
    · exact scanAt_of_length_le hge
  | some place =>
    obtain ⟨hle, hplace, hfirst⟩ := keywordFrom?_eq_some hkey
    rw [scanAt_of_no_keyword hle hfirst, scanAt_eq_searchAt hplace]

/-- The search for directives comes to an end, with the verdict of the scan. -/
theorem settles_scanAt (name source : List Char) (pos : Nat) :
    Settles name source pos (scanAt name source pos) := by
  induction hn : source.length - pos using Nat.strong_induction_on generalizing pos with
  | _ n ih =>
    have hscan := scanAt_eq_search name source pos
    cases hsearch : search name source pos with
    | settled exported =>
      rw [hsearch, Search.verdict] at hscan
      rw [hscan]
      exact .now hsearch
    | next later =>
      obtain ⟨hlt, hwithin⟩ := lt_of_search hsearch
      rw [hsearch, Search.verdict] at hscan
      rw [hscan]
      exact .later hsearch (ih (source.length - later) (by omega) later rfl)

/-- **Reading directives comes to an end, in every source and from every place on.** No round of
reading names is ever stuck, and each gets on. A directive ends behind the place from which it is
read: with the source, or in front of a character that ends directives. So each round of the search
for directives gets on as well, and the search comes to the verdict on the source. -/
theorem reading_ends (name source : List Char) (pos : Nat) :
    (∀ cursor, Reaches (namesFrom (source.drop pos)) cursor → GetsOn cursor) ∧
      (∀ listed after, read? (source.drop pos) = some (listed, after) →
        Reads (namesFrom (source.drop pos)) listed after ∧
          ∃ stop, EndsAt source pos after stop) ∧
      (∀ later, search name source pos = .next later → pos < later ∧ later ≤ source.length) ∧
      ∃ exported, Settles name source 0 exported ∧
        isExported name source = (!name.isEmpty && exported) := by
  refine ⟨fun cursor hcursor => ?_, fun listed after hread => ?_, fun later => lt_of_search, ?_⟩
  · exact getsOn_of_boundary (hcursor.boundary (boundary_namesFrom _))
  · exact ⟨reads_of_read? hread, _, endsAt_of_read? hread⟩
  · exact ⟨scanAt name source 0, settles_scanAt name source 0, rfl⟩

end ShellSurvey.Directive
