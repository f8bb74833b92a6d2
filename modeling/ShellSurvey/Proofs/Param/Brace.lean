import Mathlib.Algebra.Group.Nat.Even
import Mathlib.Data.List.DropRight
import Mathlib.Order.Bounds.Basic
import ShellSurvey.Proofs.Param.Scan

/-!
# The first bare closing brace

A search for a closing brace passes a backslash together with the character after it. What it finds
can be told without following it: a closing brace is bare if the backslashes right before it are
even in number, none before the start of the search counted (`BareAt`). The search finds the first
bare one, and fails if there is none.

The search and the parity agree because a pair that the search passes at once does not change the
parity of any run of backslashes behind it (`even_slashes_pair`): either the run does not reach the
pair, or it goes on through both of its characters or through none.
-/

namespace ShellSurvey.Param

/-! ### Runs of backslashes -/

/-- How many backslashes stand at the end of a text. -/
def slashes (text : List Char) : Nat :=
  (text.rtakeWhile (· == '\\')).length

@[simp] theorem slashes_nil : slashes [] = 0 := rfl

theorem slashes_concat (text : List Char) (c : Char) :
    slashes (text ++ [c]) = if c = '\\' then slashes text + 1 else 0 := by
  rw [slashes, List.rtakeWhile_concat, slashes]
  by_cases hc : c = '\\'
  · simp [hc]
  · simp [hc]

theorem slashes_of_forall {text : List Char} (h : ∀ d ∈ text, d = '\\') :
    slashes text = text.length := by
  rw [slashes, List.rtakeWhile_eq_self_iff.mpr (by simpa using h)]

/-- What stands before another character than a backslash does not count. -/
theorem slashes_cons_of_mem {c d : Char} {text : List Char} (hd : d ∈ c :: text) (hne : d ≠ '\\') :
    slashes (c :: text) = slashes text := by
  induction text using List.reverseRecOn with
  | nil =>
    obtain rfl := List.mem_singleton.mp hd
    exact (slashes_concat [] d).trans (if_neg hne)
  | append_singleton text e ih =>
    rw [← List.cons_append] at hd ⊢
    rw [slashes_concat, slashes_concat]
    rcases List.mem_append.mp hd with hmem | hlast
    · rw [ih hmem]
    · obtain rfl := List.mem_singleton.mp hlast
      rw [if_neg hne, if_neg hne]

theorem slashes_cons_of_ne {c : Char} (hc : c ≠ '\\') (text : List Char) :
    slashes (c :: text) = slashes text :=
  slashes_cons_of_mem List.mem_cons_self hc

/-- A backslash and the character after it do not change the parity of a run behind them. -/
theorem even_slashes_pair (c : Char) (text : List Char) :
    Even (slashes ('\\' :: c :: text)) ↔ Even (slashes text) := by
  by_cases hall : ∀ d ∈ c :: text, d = '\\'
  · have hpair : ∀ d ∈ '\\' :: c :: text, d = '\\' := List.forall_mem_cons.mpr ⟨rfl, hall⟩
    rw [slashes_of_forall hpair, slashes_of_forall (List.forall_mem_cons.mp hall).2,
      List.length_cons, List.length_cons, Nat.even_add_one, Nat.even_add_one, not_not]
  · obtain ⟨d, hd, hne⟩ : ∃ d ∈ c :: text, d ≠ '\\' := by
      simpa only [not_forall, exists_prop] using hall
    rw [slashes_cons_of_mem (List.mem_cons_of_mem _ hd) hne, slashes_cons_of_mem hd hne]

/-! ### Bare closing braces -/

/-- A closing brace stands at the place, not before the start of a search, and the backslashes
between the start and the brace that run up to it are even in number. -/
structure BareAt (text : List Char) (start place : Nat) : Prop where
  within : start ≤ place
  brace : text[place]? = some '\x7d'
  even : Even (slashes ((text.take place).drop start))

theorem bareAt_drop_iff {text : List Char} {start place : Nat} :
    BareAt (text.drop start) 0 place ↔ BareAt text start (start + place) := by
  have hrun : ((text.drop start).take place).drop 0 = (text.take (start + place)).drop start := by
    rw [List.drop_zero, List.take_drop]
  constructor
  · rintro ⟨-, hbrace, heven⟩
    exact ⟨Nat.le_add_right start place, by rwa [← List.getElem?_drop], hrun ▸ heven⟩
  · rintro ⟨-, hbrace, heven⟩
    exact ⟨Nat.zero_le place, by rwa [List.getElem?_drop], hrun ▸ heven⟩

/-- A brace is bare just if an even number of backslashes stands before it. -/
theorem bareAt_zero_iff {text : List Char} {place : Nat} :
    BareAt text 0 place ↔ text[place]? = some '\x7d' ∧ Even (slashes (text.take place)) :=
  ⟨fun h => ⟨h.brace, h.even⟩, fun h => ⟨Nat.zero_le place, h.1, h.2⟩⟩

theorem not_bareAt_nil {place : Nat} : ¬BareAt [] 0 place := by
  simp [bareAt_zero_iff]

theorem not_bareAt_slash {place : Nat} : ¬BareAt ['\\'] 0 place := by
  rw [bareAt_zero_iff]
  cases place with
  | zero => simp
  | succ place => simp

/-- A backslash takes the character behind it away. -/
theorem bareAt_pair_iff {c : Char} {text : List Char} {place : Nat} :
    BareAt ('\\' :: c :: text) 0 place ↔ ∃ behind, BareAt text 0 behind ∧ place = behind + 2 := by
  simp only [bareAt_zero_iff]
  match place with
  | 0 => simp
  | 1 =>
    have hodd : ¬Even (slashes ['\\']) := by decide
    simp [hodd]
  | behind + 2 =>
    simp [even_slashes_pair]

/-- Anything but a backslash stands for itself. -/
theorem bareAt_cons_iff {c : Char} (hc : c ≠ '\\') {text : List Char} {place : Nat} :
    BareAt (c :: text) 0 place ↔
      c = '\x7d' ∧ place = 0 ∨ ∃ behind, BareAt text 0 behind ∧ place = behind + 1 := by
  simp only [bareAt_zero_iff]
  cases place with
  | zero => simp
  | succ behind => simp [slashes_cons_of_ne hc]

/-! ### What a search finds -/

/-- Places that are all moved by the same distance keep the least one. -/
theorem isLeast_of_shift {near far : Nat → Prop} {distance place : Nat}
    (hshift : ∀ p, far p ↔ ∃ behind, near behind ∧ p = behind + distance)
    (h : IsLeast {p | near p} place) : IsLeast {p | far p} (place + distance) := by
  refine ⟨(hshift _).mpr ⟨place, h.1, rfl⟩, fun p hp => ?_⟩
  obtain ⟨behind, hbehind, rfl⟩ := (hshift p).mp hp
  exact Nat.add_le_add_right (h.2 hbehind) distance

/-- A search that succeeds stops at the first bare closing brace. -/
theorem isLeast_of_closingBrace? {text before : List Char} (h : closingBrace? text = some before) :
    IsLeast {place | BareAt text 0 place} before.length := by
  induction text using escape_induction generalizing before with
  | nil => cases h
  | slash => cases h
  | hidden c text ih =>
    rw [closingBrace?] at h
    obtain ⟨found, hfound, rfl⟩ := Option.map_eq_some_iff.mp h
    have hleast : IsLeast {place | BareAt ('\\' :: c :: text) 0 place} (found.length + 2) :=
      isLeast_of_shift (fun _ => bareAt_pair_iff) (ih hfound)
    exact hleast
  | plain c text hc ih =>
    rw [closingBrace?_cons hc] at h
    split_ifs at h with hbrace
    · obtain rfl := Option.some_inj.mp h
      exact ⟨(bareAt_cons_iff hc).mpr (.inl ⟨hbrace, rfl⟩), fun _ _ => Nat.zero_le _⟩
    · obtain ⟨found, hfound, rfl⟩ := Option.map_eq_some_iff.mp h
      refine isLeast_of_shift (fun p => ?_) (ih hfound)
      rw [bareAt_cons_iff hc, or_iff_right fun h => hbrace h.1]

/-- A search that fails has no bare closing brace to find. -/
theorem not_bareAt_of_closingBrace? {text : List Char} (h : closingBrace? text = none)
    (place : Nat) : ¬BareAt text 0 place := by
  induction text using escape_induction generalizing place with
  | nil => exact not_bareAt_nil
  | slash => exact not_bareAt_slash
  | hidden c text ih =>
    rw [closingBrace?, Option.map_eq_none_iff] at h
    rw [bareAt_pair_iff]
    rintro ⟨behind, hbehind, -⟩
    exact ih h behind hbehind
  | plain c text hc ih =>
    rw [closingBrace?_cons hc] at h
    split_ifs at h with hbrace
    rw [bareAt_cons_iff hc]
    rintro (⟨hbare, -⟩ | ⟨behind, hbehind, -⟩)
    · exact hbrace hbare
    · exact ih (Option.map_eq_none_iff.mp h) behind hbehind

/-- The place of the closing brace that a search from `start` on finds. -/
def closingPlace? (text : List Char) (start : Nat) : Option Nat :=
  (closingBrace? (text.drop start)).map (start + ·.length)

theorem exists_of_bareAt {text : List Char} {start place : Nat} (h : BareAt text start place) :
    ∃ behind, BareAt (text.drop start) 0 behind ∧ place = behind + start := by
  obtain ⟨behind, rfl⟩ := Nat.exists_eq_add_of_le h.within
  exact ⟨behind, bareAt_drop_iff.mpr h, Nat.add_comm start behind⟩

/-- The closing brace is the first bare one. -/
theorem isLeast_of_closingPlace? {text : List Char} {start place : Nat}
    (h : closingPlace? text start = some place) : IsLeast {p | BareAt text start p} place := by
  obtain ⟨before, hbefore, rfl⟩ := Option.map_eq_some_iff.mp h
  rw [Nat.add_comm]
  refine isLeast_of_shift (fun p => ⟨exists_of_bareAt, ?_⟩) (isLeast_of_closingBrace? hbefore)
  rintro ⟨behind, hbehind, rfl⟩
  rw [Nat.add_comm]
  exact bareAt_drop_iff.mp hbehind

/-- There is no closing brace just if no brace is bare. -/
theorem closingPlace?_eq_none_iff {text : List Char} {start : Nat} :
    closingPlace? text start = none ↔ ∀ place, ¬BareAt text start place := by
  constructor
  · intro h place hbare
    obtain ⟨behind, hbehind, -⟩ := exists_of_bareAt hbare
    exact not_bareAt_of_closingBrace? (Option.map_eq_none_iff.mp h) behind hbehind
  · intro h
    cases hplace : closingPlace? text start with
    | none => rfl
    | some place => exact absurd (isLeast_of_closingPlace? hplace).1 (h place)

/-- **A search finds the first bare closing brace, and fails if there is none.** -/
theorem closingPlace?_eq_some_iff {text : List Char} {start place : Nat} :
    closingPlace? text start = some place ↔ IsLeast {p | BareAt text start p} place := by
  refine ⟨isLeast_of_closingPlace?, fun h => ?_⟩
  cases hfound : closingPlace? text start with
  | none => exact absurd h.1 (closingPlace?_eq_none_iff.mp hfound place)
  | some found => rw [h.unique (isLeast_of_closingPlace? hfound)]

-- A backslash before the start of a search hides nothing from it.
example : closingPlace? ['\\', '\x7d'] 0 = none ∧ closingPlace? ['\\', '\x7d'] 1 = some 1 :=
  ⟨rfl, rfl⟩

/-! ### Default texts -/

/-- A default holds no bare brace. -/
theorem DefaultText.not_bareAt {text : List Char} (h : DefaultText text) (place : Nat) :
    ¬BareAt text 0 place := by
  induction h generalizing place with
  | nil => exact not_bareAt_nil
  | hidden c _ ih =>
    rw [bareAt_pair_iff]
    rintro ⟨behind, hbehind, -⟩
    exact ih behind hbehind
  | plain hslash hbrace _ ih =>
    rw [bareAt_cons_iff hslash]
    rintro (⟨hbare, -⟩ | ⟨behind, hbehind, -⟩)
    · exact hbrace hbare
    · exact ih behind hbehind

/-- A default does not end within an escape. -/
theorem DefaultText.even_slashes {text : List Char} (h : DefaultText text) :
    Even (slashes text) := by
  induction h with
  | nil => exact Even.zero
  | hidden c _ ih => exact (even_slashes_pair c _).mpr ih
  | plain hslash _ _ ih => rwa [slashes_cons_of_ne hslash]

/-- The brace behind a default closes it. -/
theorem closingPlace?_append {text : List Char} (h : DefaultText text) (front rest : List Char) :
    closingPlace? (front ++ (text ++ '\x7d' :: rest)) front.length =
      some (front.length + text.length) := by
  rw [closingPlace?, List.drop_left, closingBrace?_append h]
  rfl

/-- What is captured for a default text reaches from the start of a search up to what it finds. -/
theorem TokenAt.exists_search {text fallback : List Char} {o : Occurrence} {n : Nat}
    (h : TokenAt text o) (hreference : o.reference = .positional n (some fallback)) :
    DefaultText fallback ∧ ∃ first close, closingPlace? text first = some close ∧
      fallback = (text.take close).drop first ∧ o.stop = close + 1 := by
  obtain ⟨before, token, rest, rfl, hstart, hlength, htoken⟩ := h
  rw [hreference] at htoken
  cases htoken with
  | @fallback digits operator text n _ hindex ho htext =>
    obtain ⟨front, hfront⟩ : ∃ front, front = before ++ '$' :: '\x7b' :: (digits ++ operator) :=
      ⟨_, rfl⟩
    have hsplit :
        before ++ ('$' :: '\x7b' :: (digits ++ operator ++ fallback ++ ['\x7d']) ++ rest) =
          front ++ (fallback ++ '\x7d' :: rest) := by
      simp [hfront]
    rw [hsplit]
    refine ⟨htext, front.length, front.length + fallback.length,
      closingPlace?_append htext front rest, ?_, ?_⟩
    · rw [List.take_length_add_append, List.take_left, List.drop_left]
    · have hbefore := congrArg List.length hfront
      simp only [List.length_append, List.length_cons, List.length_nil] at hbefore hlength
      rw [Occurrence.stop]
      omega

/-- **A search finds the first bare closing brace, and fails if there is none.** So no closing brace
stands bare in the text that is captured for a default, and the backslashes at its end hide
nothing. -/
theorem closing_of_text (text : List Char) :
    (∀ start place, closingPlace? text start = some place ↔
        IsLeast {p | BareAt text start p} place) ∧
      (∀ start, closingPlace? text start = none ↔ ∀ place, ¬BareAt text start place) ∧
      ∀ o ∈ scanOnce text, ∀ n fallback, o.reference = .positional n (some fallback) →
        (∃ first close, closingPlace? text first = some close ∧
          fallback = (text.take close).drop first ∧ o.stop = close + 1) ∧
        (∀ place, ¬BareAt fallback 0 place) ∧ Even (slashes fallback) := by
  refine ⟨fun _ _ => closingPlace?_eq_some_iff, fun _ => closingPlace?_eq_none_iff,
    fun o ho n fallback hreference => ?_⟩
  rw [scanOnce_eq_scan] at ho
  obtain ⟨htext, hsearch⟩ := (tokenAt_of_mem_scan ho).exists_search hreference
  exact ⟨hsearch, htext.not_bareAt, htext.even_slashes⟩

end ShellSurvey.Param
