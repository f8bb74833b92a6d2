import Mathlib.Data.List.Nodup
import ShellSurvey.Proofs.Path
import ShellSurvey.Volume

/-!
# Entries of a file system

An entry is proper if it is what a file system can hold: the entries of a directory have distinct
names that can be parts of a path. Along such names a path is followed by going down
(`Entry.follow_iff_descend`), and the system refuses to tell where the way goes through what cannot
be seen (`Entry.follow_denied_iff`). The leaves of an entry are the ways that lead down to what is
no directory (`Entry.mem_leaves_iff`).
-/

namespace ShellSurvey

namespace Entry

/-- A name that a file can have: a part of a path that does not lead up. -/
structure IsFileName (name : List Char) : Prop extends Path.IsName name where
  ne_up : name ≠ ['.', '.']

/-- What a file system can hold. -/
inductive Proper : Entry → Prop
  | file (content : Content) : Proper (.file content)
  | directory {children : List (List Char × Entry)} :
      (children.map (·.1)).Nodup → (∀ child ∈ children, IsFileName child.1) →
      (∀ child ∈ children, Proper child.2) → Proper (.directory children)
  | hidden : Proper .hidden

/-- What is no directory. -/
def IsLeaf (entry : Entry) : Prop :=
  ∀ children, entry ≠ .directory children

/-- The entry that names lead down to. -/
def descend : Entry → List (List Char) → Option Entry
  | entry, [] => some entry
  | entry, name :: rest =>
    match entry.child? name with
    | some child => child.descend rest
    | none => none

variable {entry here : Entry} {above : List Entry} {way : List (List Char)}

/-! ### The entries of a directory -/

theorem mem_of_child? {children : List (List Char × Entry)} {name : List Char} {child : Entry}
    (h : (directory children).child? name = some child) : (name, child) ∈ children := by
  obtain ⟨found, hfound, rfl⟩ := Option.map_eq_some_iff.mp h
  have hname : found.1 = name := by simpa using List.find?_some hfound
  rw [← hname]
  exact List.mem_of_find?_eq_some hfound

theorem child?_of_mem {children : List (List Char × Entry)} {name : List Char} {child : Entry}
    (hnodup : (children.map (·.1)).Nodup) (h : (name, child) ∈ children) :
    (directory children).child? name = some child := by
  induction children with
  | nil => cases h
  | cons first rest ih =>
    rw [List.map_cons, List.nodup_cons] at hnodup
    rw [child?]
    rcases List.mem_cons.mp h with rfl | h
    · rw [List.find?_cons_of_pos (by simp)]
      rfl
    · have hne : first.1 ≠ name := by
        intro heq
        exact hnodup.1 (List.mem_map.mpr ⟨_, h, heq.symm⟩)
      rw [List.find?_cons_of_neg (by simpa using hne)]
      exact ih hnodup.2 h

theorem Proper.child {child : Entry} {name : List Char} (h : entry.Proper)
    (hchild : entry.child? name = some child) : child.Proper := by
  cases h with
  | file content => cases hchild
  | directory _ _ hproper => exact hproper _ (mem_of_child? hchild)
  | hidden => cases hchild

/-- There is nothing below what is no directory. -/
theorem IsLeaf.child? (h : entry.IsLeaf) (name : List Char) : entry.child? name = none := by
  cases entry with
  | file content => rfl
  | directory children => exact absurd rfl (h children)
  | hidden => rfl

theorem IsLeaf.leaves (h : entry.IsLeaf) : entry.leaves = [[]] := by
  cases entry with
  | file content => rw [Entry.leaves]
  | directory children => exact absurd rfl (h children)
  | hidden => rw [Entry.leaves]

theorem isLeaf_file (content : Content) : (file content).IsLeaf :=
  fun _ h => nomatch h

theorem isLeaf_hidden : hidden.IsLeaf :=
  fun _ h => nomatch h

/-! ### Leaves of an entry -/

/-- The leaves of a directory are those of its entries, behind their names. -/
theorem leavesOf_eq (children : List (List Char × Entry)) :
    leavesOf children = children.flatMap fun child => child.2.leaves.map (child.1 :: ·) := by
  induction children with
  | nil => rw [leavesOf, List.flatMap_nil]
  | cons child rest ih => rw [leavesOf, List.flatMap_cons, ih]

/-- A way to a leaf begins with the name of an entry. -/
theorem mem_leaves_directory {children : List (List Char × Entry)} :
    way ∈ (directory children).leaves ↔
      ∃ child ∈ children, ∃ rest ∈ child.2.leaves, child.1 :: rest = way := by
  rw [leaves, leavesOf_eq]
  simp only [List.mem_flatMap, List.mem_map]

theorem mem_leaves_iff_of_isLeaf (h : entry.IsLeaf) :
    way ∈ entry.leaves ↔ ∃ leaf, entry.descend way = some leaf ∧ leaf.IsLeaf := by
  rw [h.leaves, List.mem_singleton]
  cases way with
  | nil => simpa [descend] using h
  | cons name rest => simp [descend, h.child? name]

/-- The leaves of an entry are the ways that lead down to what is no directory. -/
theorem mem_leaves_iff (h : entry.Proper) :
    way ∈ entry.leaves ↔ ∃ leaf, entry.descend way = some leaf ∧ leaf.IsLeaf := by
  induction h generalizing way with
  | file content => exact mem_leaves_iff_of_isLeaf (isLeaf_file content)
  | hidden => exact mem_leaves_iff_of_isLeaf isLeaf_hidden
  | @directory children hnodup hnames hproper ih =>
    -- The first name of a way picks a child, and by the distinct names only one.
    rw [mem_leaves_directory]
    cases way with
    | nil => simp [descend, IsLeaf]
    | cons name rest =>
      rw [descend]
      constructor
      · rintro ⟨child, hchild, rest', hrest, heq⟩
        obtain ⟨rfl, rfl⟩ := List.cons.inj heq
        rw [child?_of_mem hnodup hchild]
        exact (ih child hchild).mp hrest
      · rintro ⟨leaf, hleaf, hisLeaf⟩
        cases hchild : (directory children).child? name with
        | none =>
          rw [hchild] at hleaf
          cases hleaf
        | some child =>
          rw [hchild] at hleaf
          have hmem := mem_of_child? hchild
          exact ⟨_, hmem, rest, (ih _ hmem).mpr ⟨leaf, hleaf, hisLeaf⟩, rfl⟩

/-- All parts of a way to a leaf are names of files. -/
theorem isFileName_of_mem_leaves (h : entry.Proper) (hway : way ∈ entry.leaves) {name : List Char}
    (hname : name ∈ way) : IsFileName name := by
  induction h generalizing way with
  | file content =>
    rw [leaves, List.mem_singleton] at hway
    rw [hway] at hname
    cases hname
  | hidden =>
    rw [leaves, List.mem_singleton] at hway
    rw [hway] at hname
    cases hname
  | directory _ hnames _ ih =>
    obtain ⟨child, hchild, rest, hrest, rfl⟩ := mem_leaves_directory.mp hway
    rcases List.mem_cons.mp hname with rfl | hname
    · exact hnames child hchild
    · exact ih child hchild hrest hname

/-- No leaf is told twice. -/
theorem nodup_leaves (h : entry.Proper) : entry.leaves.Nodup := by
  induction h with
  | file content =>
    rw [leaves]
    exact List.nodup_singleton []
  | hidden =>
    rw [leaves]
    exact List.nodup_singleton []
  | directory hnodup _ _ ih =>
    rw [leaves, leavesOf_eq, List.nodup_flatMap]
    refine ⟨fun child hchild => (ih child hchild).map (List.cons_injective), ?_⟩
    -- Ways through different children differ in their first name.
    refine (List.pairwise_map.mp hnodup).imp fun {child other} hne => ?_
    intro way hway hother
    obtain ⟨rest, -, rfl⟩ := List.mem_map.mp hway
    obtain ⟨rest', -, heq⟩ := List.mem_map.mp hother
    exact hne (List.cons.inj heq).1.symm

/-! ### Following a path -/

/-- Everything but a hidden entry is seen as it is. -/
theorem seen_eq_ok_iff {found : Entry} :
    entry.seen = .ok found ↔ entry = found ∧ entry ≠ hidden := by
  cases entry <;> simp [seen]

theorem seen_eq_denied_iff : entry.seen = .error .denied ↔ entry = hidden := by
  cases entry <;> simp [seen]

/-- Where one part of a path leads: the entry there, below the entries above it. -/
def stepTo (above : List Entry) (here : Entry) (part : List Char) :
    Except FileError (List Entry × Entry) :=
  match here with
  | .file _ => .error .blocked
  | .hidden => .error .denied
  | .directory _ =>
    if part = [] ∨ part = ['.'] then .ok (above, here)
    else if part = ['.', '.'] then .ok (above.tail, above.head?.getD here)
    else
      match here.child? part with
      | some child => .ok (here :: above, child)
      | none => .error .missing

/-- Following a path takes one step for each part. -/
theorem follow_cons (above : List Entry) (here : Entry) (part : List Char)
    (rest : List (List Char)) :
    follow above here (part :: rest) =
      match stepTo above here part with
      | .error error => .error error
      | .ok (higher, next) => follow higher next rest := by
  cases here with
  | file content =>
    rw [follow.eq_def]
    rfl
  | hidden =>
    rw [follow.eq_def]
    rfl
  | directory children =>
    rw [follow.eq_def, stepTo]
    by_cases hstay : part = [] ∨ part = ['.']
    · simp only [if_pos hstay]
    · by_cases hup : part = ['.', '.']
      · simp only [if_neg hstay, if_pos hup]
        cases above with
        | nil => rfl
        | cons parent higher => rfl
      · simp only [if_neg hstay, if_neg hup]
        cases (directory children).child? part with
        | none => rfl
        | some child => rfl

/-- A name leads to the entry of that name. -/
theorem stepTo_of_isFileName {children : List (List Char × Entry)} {name : List Char}
    (h : IsFileName name) :
    stepTo above (.directory children) name =
      match (directory children).child? name with
      | some child => .ok (.directory children :: above, child)
      | none => .error .missing := by
  have hstay : ¬(name = [] ∨ name = ['.']) := not_or.mpr ⟨h.ne_nil, h.ne_dot⟩
  rw [stepTo, if_neg hstay, if_neg h.ne_up]

theorem stepTo_of_not_isPart {children : List (List Char × Entry)} {part : List Char}
    (h : ¬Path.isPart part) :
    stepTo above (.directory children) part = .ok (above, .directory children) := by
  have hstay : part = [] ∨ part = ['.'] := by
    rw [Path.isPart, Bool.and_eq_true, not_and_or] at h
    simpa using h
  rw [stepTo, if_pos hstay]

/-- A step leads from proper entries to proper ones. -/
theorem proper_stepTo {part : List Char} {higher : List Entry} {next : Entry} (hhere : here.Proper)
    (habove : ∀ entry ∈ above, entry.Proper) (h : stepTo above here part = .ok (higher, next)) :
    next.Proper ∧ ∀ entry ∈ higher, entry.Proper := by
  cases here with
  | file content => cases h
  | hidden => cases h
  | directory children =>
    rw [stepTo] at h
    split_ifs at h with hstay hup
    · cases h
      exact ⟨hhere, habove⟩
    · -- Above the top there is the top again.
      cases h
      refine ⟨?_, fun entry hentry => habove entry (List.mem_of_mem_tail hentry)⟩
      cases above with
      | nil => exact hhere
      | cons parent higher => exact habove parent List.mem_cons_self
    · cases hchild : (directory children).child? part with
      | none =>
        rw [hchild] at h
        cases h
      | some child =>
        rw [hchild] at h
        cases h
        refine ⟨hhere.child hchild, fun entry hentry => ?_⟩
        rcases List.mem_cons.mp hentry with rfl | hentry
        · exact hhere
        · exact habove entry hentry

/-- Along file names, following is going down to what can be seen. -/
theorem follow_iff_descend {result : Entry} (hnames : ∀ name ∈ way, IsFileName name) :
    follow above here way = .ok result ↔ here.descend way = some result ∧ result ≠ hidden := by
  induction way generalizing above here with
  | nil =>
    rw [follow, seen_eq_ok_iff, descend, Option.some.injEq]
    exact and_congr_right fun h => by rw [h]
  | cons name rest ih =>
    have hrest := fun other hother => hnames other (List.mem_cons_of_mem name hother)
    cases here with
    | file content => simp [follow, descend, child?]
    | hidden => simp [follow, descend, child?]
    | directory children =>
      rw [follow_cons, stepTo_of_isFileName (hnames name List.mem_cons_self), descend]
      cases (directory children).child? name with
      | none => simp
      | some child => exact ih hrest

/-- Along file names, the system refuses to tell where the way goes through what cannot be seen. -/
theorem follow_denied_iff (hnames : ∀ name ∈ way, IsFileName name) :
    follow above here way = .error .denied ↔
      ∃ front back, way = front ++ back ∧ here.descend front = some hidden := by
  induction way generalizing above here with
  | nil =>
    rw [follow, seen_eq_denied_iff]
    constructor
    · rintro rfl
      exact ⟨[], [], rfl, rfl⟩
    · rintro ⟨front, back, hway, hfront⟩
      rw [(List.append_eq_nil_iff.mp hway.symm).1] at hfront
      exact Option.some.inj hfront
  | cons name rest ih =>
    have hrest := fun other hother => hnames other (List.mem_cons_of_mem name hother)
    cases here with
    | hidden => exact iff_of_true (by simp [follow]) ⟨[], name :: rest, rfl, rfl⟩
    | file content =>
      refine iff_of_false (by simp [follow]) ?_
      rintro ⟨front, back, -, hfront⟩
      cases front with
      | nil => cases hfront
      | cons first more => simp [descend, child?] at hfront
    | directory children =>
      rw [follow_cons, stepTo_of_isFileName (hnames name List.mem_cons_self)]
      -- What cannot be seen is behind the first name, since the start is a directory.
      have hcons : (∃ front back, name :: rest = front ++ back ∧
            (directory children).descend front = some hidden) ↔
          ∃ front back, rest = front ++ back ∧
            (directory children).descend (name :: front) = some hidden := by
        constructor
        · rintro ⟨front, back, hway, hfront⟩
          cases front with
          | nil => cases hfront
          | cons first more =>
            obtain ⟨rfl, rfl⟩ := List.cons.inj hway
            exact ⟨more, back, rfl, hfront⟩
        · rintro ⟨front, back, rfl, hfront⟩
          exact ⟨name :: front, back, rfl, hfront⟩
      rw [hcons]
      simp only [descend]
      cases (directory children).child? name with
      | none => simp
      | some child => exact ih hrest

/-- What follows a way that was found is followed from its end. -/
theorem exists_follow_append {found : Entry} (h : follow above here way = .ok found) :
    ∃ higher, ∀ rest, follow above here (way ++ rest) = follow higher found rest := by
  induction way generalizing above here with
  | nil =>
    obtain rfl := (seen_eq_ok_iff.mp h).1
    exact ⟨above, fun rest => rfl⟩
  | cons part more ih =>
    rw [follow_cons] at h
    simp only [List.cons_append, follow_cons]
    cases hstep : stepTo above here part with
    | error error =>
      rw [hstep] at h
      cases h
    | ok next =>
      rw [hstep] at h
      exact ih h

/-- What is found can be seen. -/
theorem ne_hidden_of_follow {found : Entry} (h : follow above here way = .ok found) :
    found ≠ hidden := by
  induction way generalizing above here with
  | nil =>
    obtain ⟨rfl, hseen⟩ := seen_eq_ok_iff.mp h
    exact hseen
  | cons part more ih =>
    rw [follow_cons] at h
    cases hstep : stepTo above here part with
    | error error =>
      rw [hstep] at h
      cases h
    | ok next =>
      rw [hstep] at h
      exact ih h

/-- What is found in a proper directory is proper. -/
theorem Proper.follow {found : Entry} (hhere : here.Proper) (habove : ∀ entry ∈ above, entry.Proper)
    (h : Entry.follow above here way = .ok found) : found.Proper := by
  induction way generalizing above here with
  | nil =>
    obtain rfl := (seen_eq_ok_iff.mp h).1
    exact hhere
  | cons part more ih =>
    rw [follow_cons] at h
    cases hstep : stepTo above here part with
    | error error =>
      rw [hstep] at h
      cases h
    | ok next =>
      rw [hstep] at h
      obtain ⟨hnext, hhigher⟩ := proper_stepTo hhere habove hstep
      exact ih hnext hhigher h

/-- Pieces that stay at a directory can be left out. -/
theorem follow_filter {found : Entry} (h : follow above here way = .ok found) :
    follow above here (way.filter Path.isPart) = .ok found := by
  induction way generalizing above here with
  | nil => exact h
  | cons part more ih =>
    rw [follow_cons] at h
    by_cases hpart : Path.isPart part
    · rw [List.filter_cons_of_pos hpart, follow_cons]
      cases hstep : stepTo above here part with
      | error error =>
        rw [hstep] at h
        cases h
      | ok next =>
        rw [hstep] at h
        exact ih h
    · rw [List.filter_cons_of_neg hpart]
      cases here with
      | file content => cases h
      | hidden => cases h
      | directory children =>
        rw [stepTo_of_not_isPart hpart] at h
        exact ih h

/-- A way to a directory starts at a directory. -/
theorem exists_directory_of_follow {children : List (List Char × Entry)}
    (h : follow above here way = .ok (.directory children)) :
    ∃ others, here = .directory others := by
  cases here with
  | directory others => exact ⟨others, rfl⟩
  | file content =>
    cases way with
    | nil => cases h
    | cons part rest => cases h
  | hidden =>
    cases way with
    | nil => cases h
    | cons part rest => cases h

end Entry

end ShellSurvey
