import Mathlib.Data.List.Induction
import Mathlib.Data.List.Nodup

/-!
# Tables that merge entries

A table holds one entry per key. An entry with a new key goes to the end, and one with a known key
is merged into the entry that is there, which keeps its place. So a table lists the keys in the
order in which they came first, each with the summary of all entries under it (`Table.ofList_eq`).

A table that keeps the lighter of two entries ends up with the first of the lightest entries under
each key (`Table.summary?_lighter_iff`).
-/

namespace ShellSurvey

/-! ### First occurrences -/

section EraseDups

variable {α β : Type} [BEq α] [LawfulBEq α] [BEq β] [LawfulBEq β]

theorem eraseDups_concat (l : List α) (a : α) :
    (l ++ [a]).eraseDups = if a ∈ l then l.eraseDups else l.eraseDups ++ [a] := by
  rw [List.eraseDups_append, List.removeAll]
  by_cases h : a ∈ l
  · simp [h]
  · simp [h, List.eraseDups_cons]

theorem nodup_eraseDups (l : List α) : l.eraseDups.Nodup := by
  induction l using List.reverseRecOn with
  | nil => exact List.nodup_nil
  | append_singleton l a ih =>
    rw [eraseDups_concat]
    split_ifs with h
    · exact ih
    · have hnotMem : a ∉ l.eraseDups := fun hmem => h (List.mem_eraseDups.mp hmem)
      exact List.nodup_append.mpr ⟨ih, List.nodup_singleton a, by
        intro b hb c hc
        rw [List.mem_singleton.mp hc]
        exact ne_of_mem_of_not_mem hb hnotMem⟩

theorem eraseDups_filter (p : α → Bool) (l : List α) :
    (l.filter p).eraseDups = l.eraseDups.filter p := by
  induction l using List.reverseRecOn with
  | nil => rfl
  | append_singleton l a ih =>
    rw [List.filter_append, eraseDups_concat]
    by_cases hp : p a
    · have hsingle : [a].filter p = [a] := List.filter_cons_of_pos hp
      rw [hsingle, eraseDups_concat, ih]
      by_cases hmem : a ∈ l
      · rw [if_pos (List.mem_filter.mpr ⟨hmem, hp⟩), if_pos hmem]
      · rw [if_neg fun h => hmem (List.mem_filter.mp h).1, if_neg hmem, List.filter_append, hsingle]
    · have hsingle : [a].filter p = [] := List.filter_cons_of_neg hp
      rw [hsingle, List.append_nil, ih]
      split_ifs
      · rfl
      · rw [List.filter_append, hsingle, List.append_nil]

theorem eraseDups_map {f : α → β} (hf : Function.Injective f) (l : List α) :
    (l.map f).eraseDups = l.eraseDups.map f := by
  induction l using List.reverseRecOn with
  | nil => rfl
  | append_singleton l a ih =>
    rw [List.map_append, List.map_singleton, eraseDups_concat, eraseDups_concat, ih]
    by_cases hmem : a ∈ l
    · rw [if_pos ((List.mem_map_of_injective hf).mpr hmem), if_pos hmem]
    · rw [if_neg fun h => hmem ((List.mem_map_of_injective hf).mp h), if_neg hmem, List.map_append,
        List.map_singleton]

/-- Repeating an item does not add to the items that are there. -/
theorem eraseDups_append_const {γ : Type} (l : List α) (a : α) (cs : List γ) :
    (l ++ cs.map fun _ => a).eraseDups = if cs = [] then l.eraseDups else (l ++ [a]).eraseDups := by
  induction cs using List.reverseRecOn with
  | nil => rw [List.map_nil, List.append_nil, if_pos rfl]
  | append_singleton cs c ih =>
    rw [List.map_append, List.map_singleton, ← List.append_assoc, eraseDups_concat, ih,
      if_neg (List.concat_ne_nil c cs)]
    by_cases hcs : cs = []
    · rw [if_pos hcs, hcs, List.map_nil, List.append_nil, eraseDups_concat]
    · obtain ⟨other, hother⟩ := List.exists_mem_of_ne_nil cs hcs
      have hmem : a ∈ l ++ cs.map fun _ => a :=
        List.mem_append_right l (List.mem_map.mpr ⟨other, hother, rfl⟩)
      rw [if_neg hcs, if_pos hmem]

/-- Repeating an element does not change which elements come first. -/
theorem eraseDups_flatMap_const {γ δ : Type} (f : γ → α) (cs : γ → List δ) (l : List γ) :
    (l.flatMap fun x => (cs x).map fun _ => f x).eraseDups =
      ((l.filter fun x => !(cs x).isEmpty).map f).eraseDups := by
  induction l using List.reverseRecOn with
  | nil => rfl
  | append_singleton l x ih =>
    have hmem : ∀ a, a ∈ (l.flatMap fun x => (cs x).map fun _ => f x) ↔
        a ∈ (l.filter fun x => !(cs x).isEmpty).map f := by
      intro a
      rw [← List.mem_eraseDups, ih, List.mem_eraseDups]
    rw [List.flatMap_append, List.flatMap_singleton, eraseDups_append_const, List.filter_append,
      List.map_append]
    by_cases hx : cs x = []
    · rw [if_pos hx, List.filter_cons_of_neg (by simp [hx]), List.filter_nil, List.map_nil,
        List.append_nil, ih]
    · rw [if_neg hx, List.filter_cons_of_pos (by simpa using hx), List.filter_nil,
        List.map_singleton, eraseDups_concat, eraseDups_concat, ih]
      by_cases ha : f x ∈ (l.filter fun x => !(cs x).isEmpty).map f
      · rw [if_pos ((hmem _).mpr ha), if_pos ha]
      · rw [if_neg fun h => ha ((hmem _).mp h), if_neg ha]

end EraseDups

/-! ### Tables -/

namespace Table

variable {κ α : Type}

/-- Adds an entry to a table. -/
def put [DecidableEq κ] (key : α → κ) (merge : α → α → α) (entry : α) : List α → List α
  | [] => [entry]
  | other :: rest =>
    if key other = key entry then merge other entry :: rest
    else other :: put key merge entry rest

/-- The table of the entries. -/
def ofList [DecidableEq κ] (key : α → κ) (merge : α → α → α) (entries : List α) : List α :=
  entries.foldl (fun table entry => put key merge entry table) []

/-- The summary of entries, each merged into those before it. -/
def summary? (merge : α → α → α) : List α → Option α
  | [] => none
  | entry :: rest => some (rest.foldl merge entry)

variable {key : α → κ} {merge : α → α → α}

/-- The summary takes in one entry after the other. -/
theorem summary?_concat (entries : List α) (entry : α) :
    summary? merge (entries ++ [entry]) =
      some (((summary? merge entries).map (merge · entry)).getD entry) := by
  cases entries with
  | nil => rfl
  | cons first rest => simp [summary?]

variable (hmerge : ∀ a b, key b = key a → key (merge a b) = key a)

include hmerge in
/-- Summing up entries of one key keeps the key. -/
theorem key_summary? {entries : List α} {k : κ} {e : α}
    (hentries : ∀ entry ∈ entries, key entry = k) (h : summary? merge entries = some e) :
    key e = k := by
  induction entries using List.reverseRecOn generalizing e with
  | nil => cases h
  | append_singleton entries entry ih =>
    rw [summary?_concat] at h
    obtain rfl := Option.some.inj h
    have hentry : key entry = k := hentries entry (by simp)
    cases hsummary : summary? merge entries with
    | none => exact hentry
    | some other =>
      have hother := ih (fun entry hentry => hentries entry (by simp [hentry])) hsummary
      rw [Option.map_some, Option.getD_some, hmerge other entry (hentry.trans hother.symm), hother]

/-- A summary of the entries under each key, as a table has it. -/
structure Describes (key : α → κ) (keys : List κ) (summary : κ → Option α) : Prop where
  /-- No key comes twice. -/
  nodup : keys.Nodup
  /-- Every key has a summary. -/
  isSome : ∀ k ∈ keys, (summary k).isSome
  /-- A summary has its key. -/
  key_eq : ∀ k e, summary k = some e → key e = k

variable [DecidableEq κ]

/-- Putting in an entry changes the summary of its key, if there is one. -/
theorem put_of_mem {keys : List κ} {summary : κ → Option α} (h : Describes key keys summary)
    {entry : α} (hmem : key entry ∈ keys) :
    put key merge entry (keys.filterMap summary) =
      keys.filterMap fun k =>
        if k = key entry then (summary k).map (merge · entry) else summary k := by
  induction keys with
  | nil => cases hmem
  | cons k keys ih =>
    obtain ⟨hnotMem, hnodup⟩ := List.nodup_cons.mp h.nodup
    obtain ⟨e, he⟩ := Option.isSome_iff_exists.mp (h.isSome k List.mem_cons_self)
    rw [List.filterMap_cons_some he, put, h.key_eq k e he]
    split_ifs with hk
    · -- The entry is merged here, and the keys that follow are others.
      rw [List.filterMap_cons_some (b := merge e entry) (by rw [if_pos hk, he, Option.map_some])]
      congr 1
      refine List.filterMap_congr fun other hother => ?_
      have hne : other ≠ key entry := fun heq => hnotMem (by rwa [hk, ← heq])
      rw [if_neg hne]
    · rw [List.filterMap_cons_some (b := e) (by rw [if_neg hk, he])]
      have hmem : key entry ∈ keys := (List.mem_cons.mp hmem).resolve_left (Ne.symm hk)
      rw [ih ⟨hnodup, fun k hk => h.isSome k (List.mem_cons_of_mem _ hk), h.key_eq⟩ hmem]

/-- An entry with a new key comes last. -/
theorem put_of_not_mem {keys : List κ} {summary : κ → Option α} (h : Describes key keys summary)
    {entry : α} (hmem : key entry ∉ keys) :
    put key merge entry (keys.filterMap summary) = keys.filterMap summary ++ [entry] := by
  induction keys with
  | nil => rfl
  | cons k keys ih =>
    obtain ⟨hne, hnotMem⟩ := not_or.mp fun h => hmem (List.mem_cons.mpr h)
    obtain ⟨e, he⟩ := Option.isSome_iff_exists.mp (h.isSome k List.mem_cons_self)
    rw [List.filterMap_cons_some he, put, h.key_eq k e he, if_neg (Ne.symm hne), List.cons_append]
    rw [ih ⟨(List.nodup_cons.mp h.nodup).2, fun k hk => h.isSome k (List.mem_cons_of_mem _ hk),
      h.key_eq⟩ hnotMem]

include hmerge

/-- The summaries of all entries describe the table. -/
theorem describes_summary? (entries : List α) :
    Describes key (entries.map key).eraseDups
      fun k => summary? merge (entries.filter (key · = k)) where
  nodup := nodup_eraseDups _
  isSome k hk := by
    obtain ⟨entry, hentry, rfl⟩ := List.mem_map.mp (List.mem_eraseDups.mp hk)
    have hmem : entry ∈ entries.filter (key · = key entry) := by simp [hentry]
    cases hfilter : entries.filter (key · = key entry) with
    | nil => rw [hfilter] at hmem; cases hmem
    | cons first rest => rfl
  key_eq k e he := by
    refine key_summary? hmerge (fun entry hentry => ?_) he
    simpa using (List.mem_filter.mp hentry).2

/-- **A table lists the keys in the order in which they came first**, each with the summary of
the entries under it. -/
theorem ofList_eq (entries : List α) :
    ofList key merge entries =
      (entries.map key).eraseDups.filterMap fun k =>
        summary? merge (entries.filter (key · = k)) := by
  induction entries using List.reverseRecOn with
  | nil => rfl
  | append_singleton entries entry ih =>
    have hdescribes := describes_summary? hmerge entries
    have hsummary : ∀ k, summary? merge ((entries ++ [entry]).filter (key · = k)) =
        if k = key entry then
          some (((summary? merge (entries.filter (key · = k))).map (merge · entry)).getD entry)
        else summary? merge (entries.filter (key · = k)) := by
      intro k
      rw [List.filter_append]
      by_cases hk : k = key entry
      · rw [if_pos hk, List.filter_cons_of_pos (by simp [hk]), List.filter_nil, summary?_concat]
      · rw [if_neg hk, List.filter_cons_of_neg (by simpa using Ne.symm hk), List.filter_nil,
          List.append_nil]
    rw [ofList, List.foldl_append, List.foldl_cons, List.foldl_nil, ← ofList, ih, List.map_append,
      List.map_singleton, eraseDups_concat]
    simp only [hsummary]
    by_cases hmem : key entry ∈ entries.map key
    · -- The key is known: its entry is merged where it stands.
      rw [if_pos hmem, put_of_mem hdescribes (List.mem_eraseDups.mpr hmem)]
      refine List.filterMap_congr fun k hk => ?_
      obtain ⟨e, he⟩ := Option.isSome_iff_exists.mp (hdescribes.isSome k hk)
      rw [he, Option.map_some, Option.getD_some]
    · -- The key is new: the entry goes to the end, as its own summary.
      have hnotMem : key entry ∉ (entries.map key).eraseDups := fun h =>
        hmem (List.mem_eraseDups.mp h)
      have hfilter : entries.filter (key · = key entry) = [] := by
        refine List.filter_eq_nil_iff.mpr fun other hother => ?_
        have hne : key other ≠ key entry := fun heq => hmem (heq ▸ List.mem_map_of_mem hother)
        simpa using hne
      rw [if_neg hmem, put_of_not_mem hdescribes hnotMem, List.filterMap_append]
      congr 1
      · refine List.filterMap_congr fun k hk => ?_
        have hne : k ≠ key entry := ne_of_mem_of_not_mem hk hnotMem
        rw [if_neg hne]
      · rw [List.filterMap_cons_some (b := entry) (by rw [if_pos rfl, hfilter]; rfl),
          List.filterMap_nil]

/-- Keys come in the order in which they first appear. -/
theorem map_key_ofList (entries : List α) :
    (ofList key merge entries).map key = (entries.map key).eraseDups := by
  have hdescribes := describes_summary? hmerge entries
  have hkey : ∀ k ∈ (entries.map key).eraseDups,
      (summary? merge (entries.filter (key · = k))).map key = some k := by
    intro k hk
    obtain ⟨e, he⟩ := Option.isSome_iff_exists.mp (hdescribes.isSome k hk)
    rw [he, Option.map_some, hdescribes.key_eq k e he]
  rw [ofList_eq hmerge, List.map_filterMap, List.filterMap_congr hkey, List.filterMap_some]

theorem mem_map_key_ofList {entries : List α} {k : κ} :
    k ∈ (ofList key merge entries).map key ↔ k ∈ entries.map key := by
  rw [map_key_ofList hmerge, List.mem_eraseDups]

/-- The table holds the summary of each key. -/
theorem mem_ofList {entries : List α} {e : α} :
    e ∈ ofList key merge entries ↔
      summary? merge (entries.filter (key · = key e)) = some e := by
  have hdescribes := describes_summary? hmerge entries
  rw [ofList_eq hmerge, List.mem_filterMap]
  refine ⟨fun ⟨k, hk, he⟩ => ?_, fun he => ⟨key e, ?_, he⟩⟩
  · rwa [hdescribes.key_eq k e he]
  · cases hfilter : entries.filter (key · = key e) with
    | nil =>
      rw [hfilter] at he
      cases he
    | cons entry rest =>
      have hentry : entry ∈ entries.filter (key · = key e) := by simp [hfilter]
      obtain ⟨hmem, hkey⟩ := List.mem_filter.mp hentry
      exact List.mem_eraseDups.mpr (List.mem_map.mpr ⟨entry, hmem, by simpa using hkey⟩)

end Table

/-! ### Keeping the lightest entry -/

namespace Table

variable {α : Type}

/-- Of two entries the lighter one, the first if they weigh the same. -/
def lighter (weight : α → Nat) (entry other : α) : α :=
  if weight other < weight entry then other else entry

/-- Whether an entry is the first of the lightest ones: those before it weigh more, and those
behind it no less. -/
def FirstLeast (weight : α → Nat) (entries : List α) (entry : α) : Prop :=
  ∃ before after, entries = before ++ entry :: after ∧
    (∀ other ∈ before, weight entry < weight other) ∧ ∀ other ∈ after, weight entry ≤ weight other

variable {weight : α → Nat} {entries : List α} {entry other : α}

theorem FirstLeast.mem (h : FirstLeast weight entries entry) : entry ∈ entries := by
  obtain ⟨before, after, rfl, -, -⟩ := h
  simp

/-- No entry is lighter than the chosen one. -/
theorem FirstLeast.le (h : FirstLeast weight entries entry) (hother : other ∈ entries) :
    weight entry ≤ weight other := by
  obtain ⟨before, after, rfl, hbefore, hafter⟩ := h
  rcases List.mem_append.mp hother with hother | hother
  · exact Nat.le_of_lt (hbefore other hother)
  · rcases List.mem_cons.mp hother with rfl | hother
    · exact Nat.le_refl _
    · exact hafter other hother

/-- One entry more is chosen only if it is lighter. -/
theorem FirstLeast.concat (h : FirstLeast weight entries entry) (other : α) :
    FirstLeast weight (entries ++ [other]) (lighter weight entry other) := by
  rw [lighter]
  split_ifs with hlt
  · refine ⟨entries, [], rfl, fun earlier hearlier => ?_, List.forall_mem_nil _⟩
    exact Nat.lt_of_lt_of_le hlt (h.le hearlier)
  · obtain ⟨before, after, rfl, hbefore, hafter⟩ := h
    refine ⟨before, after ++ [other], by simp, hbefore, fun later hlater => ?_⟩
    rcases List.mem_append.mp hlater with hlater | hlater
    · exact hafter later hlater
    · rw [List.mem_singleton.mp hlater]
      exact Nat.le_of_not_lt hlt

/-- The first of the lightest entries is determined. -/
theorem FirstLeast.unique (h : FirstLeast weight entries entry)
    (hother : FirstLeast weight entries other) : entry = other := by
  have hle := h.le hother.mem
  have hge := hother.le h.mem
  obtain ⟨before, after, hsplit, hbefore, -⟩ := h
  obtain ⟨before', after', hsplit', hbefore', -⟩ := hother
  -- Neither comes before the other one, as it would then weigh more.
  rcases List.append_eq_append_iff.mp (hsplit.symm.trans hsplit') with
    ⟨between, hbetween, hcons⟩ | ⟨between, hbetween, hcons⟩
  · cases between with
    | nil => exact (List.cons.inj hcons).1
    | cons first rest =>
      obtain ⟨rfl, -⟩ := List.cons.inj hcons
      exact absurd (hbefore' entry (by simp [hbetween])) (Nat.not_lt.mpr hle)
  · cases between with
    | nil => exact (List.cons.inj hcons).1.symm
    | cons first rest =>
      obtain ⟨rfl, -⟩ := List.cons.inj hcons
      exact absurd (hbefore other (by simp [hbetween])) (Nat.not_lt.mpr hge)

/-- The summary that keeps the lighter of two entries is the first of the lightest ones. -/
theorem summary?_lighter_iff :
    summary? (lighter weight) entries = some entry ↔ FirstLeast weight entries entry := by
  have hsummary : ∀ first rest, FirstLeast weight (first :: rest)
      (rest.foldl (lighter weight) first) := by
    intro first rest
    induction rest using List.reverseRecOn with
    | nil => exact ⟨[], [], rfl, List.forall_mem_nil _, List.forall_mem_nil _⟩
    | append_singleton rest other ih =>
      rw [List.foldl_append]
      exact ih.concat other
  cases entries with
  | nil =>
    refine ⟨fun h => (nomatch h), fun h => ?_⟩
    cases h.mem
  | cons first rest =>
    rw [summary?, Option.some_inj]
    refine ⟨fun h => h ▸ hsummary first rest, fun h => (hsummary first rest).unique h⟩

/-- Where no two entries weigh the same, the order of the entries does not matter. -/
theorem firstLeast_iff_of_nodup (h : (entries.map weight).Nodup) :
    FirstLeast weight entries entry ↔
      entry ∈ entries ∧ ∀ other ∈ entries, weight entry ≤ weight other := by
  refine ⟨fun hleast => ⟨hleast.mem, fun other hother => hleast.le hother⟩, ?_⟩
  rintro ⟨hmem, hle⟩
  obtain ⟨before, after, rfl⟩ := List.append_of_mem hmem
  rw [List.map_append, List.map_cons, List.nodup_middle, List.nodup_cons, List.mem_append] at h
  refine ⟨before, after, rfl, fun other hother => ?_, fun other hother => ?_⟩
  · have hne : weight entry ≠ weight other := fun heq =>
      h.1 (.inl (heq ▸ List.mem_map_of_mem hother))
    exact Nat.lt_of_le_of_ne (hle other (List.mem_append_left _ hother)) hne
  · exact hle other (List.mem_append_right _ (List.mem_cons_of_mem _ hother))

theorem firstLeast_map_iff {β : Type} {f : β → α} (hf : Function.Injective f) {l : List β} {x : β} :
    FirstLeast weight (l.map f) (f x) ↔ FirstLeast (weight ∘ f) l x := by
  constructor
  · rintro ⟨before, after, hsplit, hbefore, hafter⟩
    obtain ⟨before, rest, rfl, rfl, hrest⟩ := List.map_eq_append_iff.mp hsplit
    obtain ⟨y, after, rfl, hy, rfl⟩ := List.map_eq_cons_iff.mp hrest
    obtain rfl := hf hy
    refine ⟨before, after, rfl, fun other hother => ?_, fun other hother => ?_⟩
    · exact hbefore _ (List.mem_map_of_mem hother)
    · exact hafter _ (List.mem_map_of_mem hother)
  · rintro ⟨before, after, rfl, hbefore, hafter⟩
    refine ⟨before.map f, after.map f, by simp, ?_, ?_⟩
    · simpa using hbefore
    · simpa using hafter

end Table

end ShellSurvey
