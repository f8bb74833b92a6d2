import Mathlib.Data.Char
import Mathlib.Data.List.Lex
import ShellSurvey.Proofs.Volume.Entries

/-!
# What a path expands to

A volume is proper if it is what a file system can be: its entries are proper and the current
directory is there. On such a volume a directory expands to exactly the files below it that are
scripts by their names, in strict order of their parts, up to the first entry that the system does
not tell about; and any other path expands to itself: `Volume.Expansion`, which fixes the listing.
Several paths expand one after the other, as far as no entry is refused: `Volume.Expands`.
-/

namespace ShellSurvey

namespace Volume

variable {volume : Volume} {path script : Path}

/-- What a file system can be. -/
structure Proper (volume : Volume) : Prop where
  top : volume.top.Proper
  /-- The current directory is there. -/
  here : ∃ children, volume.top.follow [] volume.here = .ok (.directory children)

/-- The script is a file below the directory. -/
def FileBelow (volume : Volume) (directory script : Path) : Prop :=
  ∃ names content, (∀ name ∈ names, Entry.IsFileName name) ∧
    script = { directory with parts := directory.parts ++ names } ∧
    volume.look script = .ok (.file content)

/-- The system does not tell about an entry below the directory. -/
def DeniedBelow (volume : Volume) (directory path : Path) : Prop :=
  ∃ names, (∀ name ∈ names, Entry.IsFileName name) ∧
    path = { directory with parts := directory.parts ++ names } ∧
    volume.look path = .error .denied

/-- What a path expands to. -/
structure Expansion (volume : Volume) (path : Path) (listing : Listing) : Prop where
  /-- Nothing is behind a path that the system does not tell about. -/
  refused : volume.look path = .error .denied → listing = { stop := some path }
  /-- What is no directory is kept. -/
  kept : volume.look path ≠ .error .denied → volume.isDirectory path = false →
    listing = { files := [path] }
  /-- A directory is gone through up to the first entry that the system does not tell about. -/
  stop_iff : volume.isDirectory path = true → ∀ stop, listing.stop = some stop ↔
    volume.DeniedBelow path stop ∧
      ∀ other, volume.DeniedBelow path other → ¬other.parts < stop.parts
  /-- A directory gives the files below it that are scripts by their names and come before that
  entry. -/
  mem_iff : volume.isDirectory path = true → ∀ script, script ∈ listing.files ↔
    volume.FileBelow path script ∧ Grammar.isScriptPath script ∧
      ∀ stop, listing.stop = some stop → script.parts < stop.parts
  /-- They come in order of their parts. -/
  sorted : volume.isDirectory path = true → listing.files.Pairwise fun a b => a.parts < b.parts

/-- What several paths expand to: all their files, or those before the first entry that the system
does not tell about. -/
inductive Expands (volume : Volume) : List Path → Listing → Prop
  | all {paths : List Path} : (∀ path ∈ paths, (volume.list path).stop = none) →
      Expands volume paths { files := paths.flatMap fun path => (volume.list path).files }
  | upTo {before after : List Path} {path stop : Path} :
      (∀ other ∈ before, (volume.list other).stop = none) →
      (volume.list path).stop = some stop →
      Expands volume (before ++ path :: after)
        { files := (before.flatMap fun other => (volume.list other).files) ++
            (volume.list path).files
          stop := some stop }

/-! ### Order -/

/-- Ways are compared part by part. -/
theorem wayLe_iff {a b : List (List Char)} : wayLe a b = true ↔ a ≤ b := by
  simp [wayLe]

/-- Different ways are sorted strictly. -/
theorem sorted_mergeSort {ways : List (List (List Char))} (h : ways.Nodup) :
    (ways.mergeSort wayLe).Pairwise (· < ·) := by
  have hsorted : (ways.mergeSort wayLe).Pairwise fun a b => wayLe a b = true := by
    refine List.pairwise_mergeSort (fun a b c hab hbc => ?_) (fun a b => ?_) ways
    · exact wayLe_iff.mpr ((wayLe_iff.mp hab).trans (wayLe_iff.mp hbc))
    · rw [Bool.or_eq_true, wayLe_iff, wayLe_iff]
      exact le_total a b
  have hnodup : (ways.mergeSort wayLe).Nodup := (List.mergeSort_perm ways wayLe).nodup_iff.mpr h
  exact (hsorted.and hnodup).imp fun hab => lt_of_le_of_ne (wayLe_iff.mp hab.1) hab.2

theorem lt_append_cons (parts : List (List Char)) (name : List Char) (rest : List (List Char)) :
    parts < parts ++ name :: rest := by
  have hlt : parts ++ [] < parts ++ name :: rest := List.append_left_lt (List.nil_lt_cons name rest)
  rwa [List.append_nil] at hlt

theorem le_append (parts more : List (List Char)) : parts ≤ parts ++ more := by
  cases more with
  | nil => rw [List.append_nil]
  | cons name rest => exact (lt_append_cons parts name rest).le

/-! ### Lookups -/

theorem isDirectory_iff :
    volume.isDirectory path = true ↔ ∃ children, volume.look path = .ok (.directory children) := by
  rw [isDirectory]
  split
  · rename_i children hlook
    simp [hlook]
  · rename_i hlook
    simp only [Bool.false_eq_true, false_iff]
    exact fun ⟨children, h⟩ => hlook children h

/-- What is found in a proper volume is proper. -/
theorem Proper.look {entry : Entry} (h : volume.Proper) (hlook : volume.look path = .ok entry) :
    entry.Proper :=
  Entry.Proper.follow h.top (fun _ hentry => absurd hentry List.not_mem_nil) hlook

/-- Below a directory, entries are looked up from there. -/
theorem exists_look_below {children : List (List Char × Entry)}
    (hlook : volume.look path = .ok (.directory children)) :
    ∃ above, ∀ names, volume.look { path with parts := path.parts ++ names } =
      Entry.follow above (.directory children) names := by
  obtain ⟨higher, hhigher⟩ := Entry.exists_follow_append hlook
  refine ⟨higher, fun names => ?_⟩
  have hpieces : (if path.isAbsolute then path.parts ++ names
      else volume.here ++ (path.parts ++ names)) =
      (if path.isAbsolute then path.parts else volume.here ++ path.parts) ++ names := by
    split_ifs with habsolute
    · rfl
    · rw [List.append_assoc]
  rw [← hhigher names, ← hpieces]
  rfl

/-! ### Going through a directory -/

/-- Whether the system does not tell about a path. -/
def isDenied (volume : Volume) (path : Path) : Bool :=
  match volume.look path with
  | .error .denied => true
  | _ => false

/-- Whether there is a file at a path. -/
def isFile (volume : Volume) (path : Path) : Bool :=
  match volume.look path with
  | .ok (.file _) => true
  | _ => false

theorem isDenied_iff : volume.isDenied path = true ↔ volume.look path = .error .denied := by
  rw [isDenied]
  split <;> simp_all

theorem isFile_iff :
    volume.isFile path = true ↔ ∃ content, volume.look path = .ok (.file content) := by
  rw [isFile]
  split <;> simp_all

/-- Going through paths stops at the first that the system does not tell about, and keeps the
scripts among the files before it. -/
theorem sift_eq (volume : Volume) (paths : List Path) :
    volume.sift paths =
      { files := (paths.takeWhile fun path => !volume.isDenied path).filter fun path =>
          volume.isFile path && Grammar.isScriptPath path
        stop := paths.find? volume.isDenied } := by
  induction paths with
  | nil => rfl
  | cons path rest ih =>
    rw [sift, ih]
    split
    · rename_i hlook
      have hdenied : volume.isDenied path = true := isDenied_iff.mpr hlook
      rw [List.find?_cons_of_pos hdenied, List.takeWhile_cons_of_neg (by simp [hdenied])]
      rfl
    · rename_i content hlook
      have hdenied : volume.isDenied path = false := by simp [isDenied, hlook]
      have hfile : volume.isFile path = true := isFile_iff.mpr ⟨content, hlook⟩
      rw [List.find?_cons_of_neg (by simp [hdenied]),
        List.takeWhile_cons_of_pos (by simp [hdenied]), List.filter_cons, hfile, Bool.true_and]
      split_ifs <;> rfl
    · rename_i hnotDenied hnotFile
      have hdenied : ¬volume.isDenied path = true := fun h => hnotDenied (isDenied_iff.mp h)
      have hfile : ¬volume.isFile path = true := fun h => by
        obtain ⟨content, hlook⟩ := isFile_iff.mp h
        exact hnotFile content hlook
      rw [List.find?_cons_of_neg hdenied, List.takeWhile_cons_of_pos (by simpa using hdenied),
        List.filter_cons_of_neg (by simp [hfile])]

section Sorted

variable {paths : List Path} {p : Path → Bool} {stop : Path}

/-- In order of parts, the first path of a kind is the least one. -/
theorem find?_eq_some_iff_of_sorted (h : paths.Pairwise fun a b => a.parts < b.parts) :
    paths.find? p = some stop ↔
      stop ∈ paths ∧ p stop ∧ ∀ other ∈ paths, p other → ¬other.parts < stop.parts := by
  induction paths with
  | nil => simp
  | cons first rest ih =>
    obtain ⟨hfirst, hrest⟩ := List.pairwise_cons.mp h
    cases hp : p first with
    | true =>
      rw [List.find?_cons_of_pos hp, Option.some.injEq]
      constructor
      · rintro rfl
        refine ⟨List.mem_cons_self, hp, fun other hother _ => ?_⟩
        rcases List.mem_cons.mp hother with rfl | hother
        · exact lt_irrefl _
        · exact lt_asymm (hfirst other hother)
      · rintro ⟨hmem, -, hleast⟩
        rcases List.mem_cons.mp hmem with rfl | hmem
        · rfl
        · exact absurd (hfirst stop hmem) (hleast first List.mem_cons_self hp)
    | false =>
      have hne : ∀ {other}, p other → other ≠ first := by
        rintro other hother rfl
        rw [hp] at hother
        cases hother
      rw [List.find?_cons_of_neg (by simp [hp]), ih hrest]
      constructor
      · rintro ⟨hmem, hstop, hleast⟩
        refine ⟨List.mem_cons_of_mem _ hmem, hstop, fun other hother hpother => ?_⟩
        exact hleast other (List.mem_of_ne_of_mem (hne hpother) hother) hpother
      · rintro ⟨hmem, hstop, hleast⟩
        refine ⟨List.mem_of_ne_of_mem (hne hstop) hmem, hstop, fun other hother => ?_⟩
        exact hleast other (List.mem_cons_of_mem _ hother)

/-- In order of parts, the paths before the first one of a kind are those less than it. -/
theorem mem_takeWhile_iff_of_sorted (h : paths.Pairwise fun a b => a.parts < b.parts) :
    script ∈ paths.takeWhile (fun path => !p path) ↔
      script ∈ paths ∧ ∀ stop, paths.find? p = some stop → script.parts < stop.parts := by
  induction paths with
  | nil => simp
  | cons first rest ih =>
    obtain ⟨hfirst, hrest⟩ := List.pairwise_cons.mp h
    cases hp : p first with
    | true =>
      rw [List.takeWhile_cons_of_neg (by simp [hp]), List.find?_cons_of_pos hp]
      refine iff_of_false List.not_mem_nil ?_
      rintro ⟨hmem, hless⟩
      rcases List.mem_cons.mp hmem with rfl | hmem
      · exact lt_irrefl _ (hless _ rfl)
      · exact lt_asymm (hfirst script hmem) (hless first rfl)
    | false =>
      rw [List.takeWhile_cons_of_pos (by simp [hp]), List.find?_cons_of_neg (by simp [hp]),
        List.mem_cons, List.mem_cons, ih hrest]
      constructor
      · rintro (rfl | ⟨hmem, hless⟩)
        · exact ⟨.inl rfl, fun stop hstop => hfirst stop (List.mem_of_find?_eq_some hstop)⟩
        · exact ⟨.inr hmem, hless⟩
      · rintro ⟨rfl | hmem, hless⟩
        · exact .inl rfl
        · exact .inr ⟨hmem, hless⟩

end Sorted

/-! ### Expansions -/

/-- The leaves of a directory, as paths in order. -/
def leavesAt (path : Path) (children : List (List Char × Entry)) : List Path :=
  ((Entry.directory children).leaves.mergeSort wayLe).map fun way =>
    { path with parts := path.parts ++ way }

variable {children : List (List Char × Entry)}

/-- A directory is listed by sifting the leaves below it. -/
theorem list_of_directory (hlook : volume.look path = .ok (.directory children)) :
    volume.list path = volume.sift (leavesAt path children) := by
  rw [list, hlook]
  rfl

/-- A file is listed as itself, whatever its name is. -/
theorem list_of_file {content : Content} (hlook : volume.look path = .ok (.file content)) :
    volume.list path = { files := [path] } := by
  rw [list, hlook]

/-- The paths below a directory are sorted by their parts. -/
theorem sorted_leavesAt (h : (Entry.directory children).Proper) (path : Path) :
    (leavesAt path children).Pairwise fun a b => a.parts < b.parts := by
  have hways := sorted_mergeSort (Entry.nodup_leaves h)
  exact List.pairwise_map.mpr (hways.imp fun hlt => List.append_left_lt hlt)

/-- The leaves of a directory have file names, and each is a file or cannot be seen. -/
theorem exists_leaf_of_mem_leavesAt (h : volume.Proper)
    (hlook : volume.look path = .ok (.directory children))
    (hscript : script ∈ leavesAt path children) :
    ∃ names leaf, (∀ name ∈ names, Entry.IsFileName name) ∧
      script = { path with parts := path.parts ++ names } ∧
      (Entry.directory children).descend names = some leaf ∧ leaf.IsLeaf := by
  have hproper := h.look hlook
  obtain ⟨way, hway, rfl⟩ := List.mem_map.mp hscript
  rw [List.mem_mergeSort] at hway
  obtain ⟨leaf, hleaf, hisLeaf⟩ := (Entry.mem_leaves_iff hproper).mp hway
  exact ⟨way, leaf, fun name => Entry.isFileName_of_mem_leaves hproper hway, rfl, hleaf, hisLeaf⟩

/-- Every leaf below a directory is among its paths. -/
theorem mem_leavesAt {names : List (List Char)} {leaf : Entry}
    (h : (Entry.directory children).Proper) (hisLeaf : leaf.IsLeaf)
    (hleaf : (Entry.directory children).descend names = some leaf) :
    ({ path with parts := path.parts ++ names } : Path) ∈ leavesAt path children :=
  List.mem_map.mpr
    ⟨names, List.mem_mergeSort.mpr ((Entry.mem_leaves_iff h).mpr ⟨leaf, hleaf, hisLeaf⟩), rfl⟩

/-- The files below a directory are the files among its leaves. -/
theorem fileBelow_iff (h : volume.Proper) (hlook : volume.look path = .ok (.directory children)) :
    volume.FileBelow path script ↔
      script ∈ leavesAt path children ∧ volume.isFile script = true := by
  obtain ⟨above, habove⟩ := exists_look_below hlook
  constructor
  · rintro ⟨names, content, hnames, rfl, hcontent⟩
    refine ⟨?_, isFile_iff.mpr ⟨content, hcontent⟩⟩
    rw [habove, Entry.follow_iff_descend hnames] at hcontent
    exact mem_leavesAt (h.look hlook) (Entry.isLeaf_file content) hcontent.1
  · rintro ⟨hmem, hfile⟩
    obtain ⟨names, -, hnames, rfl, -⟩ := exists_leaf_of_mem_leavesAt h hlook hmem
    obtain ⟨content, hcontent⟩ := isFile_iff.mp hfile
    exact ⟨names, content, hnames, rfl, hcontent⟩

/-- What the system does not tell about below a directory lies at or behind a leaf of that kind. -/
theorem deniedBelow_iff (h : volume.Proper) (hlook : volume.look path = .ok (.directory children))
    {other : Path} :
    volume.DeniedBelow path other ↔
      ∃ stop more, stop ∈ leavesAt path children ∧ volume.isDenied stop = true ∧
        (∀ name ∈ more, Entry.IsFileName name) ∧
        other = { stop with parts := stop.parts ++ more } := by
  obtain ⟨above, habove⟩ := exists_look_below hlook
  constructor
  · rintro ⟨names, hnames, rfl, hdenied⟩
    rw [habove, Entry.follow_denied_iff hnames] at hdenied
    obtain ⟨front, back, rfl, hfront⟩ := hdenied
    obtain ⟨hfrontNames, hbackNames⟩ := List.forall_mem_append.mp hnames
    refine ⟨{ path with parts := path.parts ++ front }, back,
      mem_leavesAt (h.look hlook) Entry.isLeaf_hidden hfront, ?_, hbackNames, ?_⟩
    · rw [isDenied_iff, habove, Entry.follow_denied_iff hfrontNames]
      exact ⟨front, [], (List.append_nil front).symm, hfront⟩
    · rw [List.append_assoc]
  · rintro ⟨stop, more, hmem, hdenied, hmore, rfl⟩
    obtain ⟨names, leaf, hnames, rfl, -⟩ := exists_leaf_of_mem_leavesAt h hlook hmem
    have hall := List.forall_mem_append.mpr ⟨hnames, hmore⟩
    refine ⟨names ++ more, hall, by rw [List.append_assoc], ?_⟩
    rw [isDenied_iff, habove, Entry.follow_denied_iff hnames] at hdenied
    obtain ⟨front, back, rfl, hfront⟩ := hdenied
    dsimp only
    rw [List.append_assoc, habove, Entry.follow_denied_iff hall]
    exact ⟨front, back ++ more, List.append_assoc .., hfront⟩

/-- **What a path expands to**: the scripts of a directory, or the path itself. -/
theorem expansion_list (h : volume.Proper) (path : Path) :
    volume.Expansion path (volume.list path) where
  refused hdenied := by rw [list, hdenied]
  kept hseen hnot := by
    rw [list]
    split
    · rename_i children hlook
      rw [isDirectory_iff.mpr ⟨children, hlook⟩] at hnot
      cases hnot
    · rename_i hlook
      exact absurd hlook hseen
    · rfl
  stop_iff hdirectory stop := by
    obtain ⟨children, hlook⟩ := isDirectory_iff.mp hdirectory
    have hsorted := sorted_leavesAt (h.look hlook) path
    rw [list_of_directory hlook, sift_eq, find?_eq_some_iff_of_sorted hsorted]
    have hbelow : ∀ {other}, other ∈ leavesAt path children → volume.isDenied other = true →
        volume.DeniedBelow path other := fun {other} hmem hdenied =>
      (deniedBelow_iff h hlook).mpr ⟨other, [], hmem, hdenied, by simp, by rw [List.append_nil]⟩
    constructor
    · rintro ⟨hmem, hdenied, hleast⟩
      refine ⟨hbelow hmem hdenied, fun other hother hlt => ?_⟩
      obtain ⟨leaf, more, hleaf, hleafDenied, -, rfl⟩ := (deniedBelow_iff h hlook).mp hother
      exact hleast leaf hleaf hleafDenied (lt_of_le_of_lt (le_append leaf.parts more) hlt)
    · rintro ⟨hstop, hleast⟩
      obtain ⟨leaf, more, hleaf, hleafDenied, -, rfl⟩ := (deniedBelow_iff h hlook).mp hstop
      -- There is nothing behind the leaf, since the leaf itself would come first.
      have hnot := hleast leaf (hbelow hleaf hleafDenied)
      cases more with
      | nil =>
        rw [List.append_nil] at hnot hleast ⊢
        exact ⟨hleaf, hleafDenied, fun other hother hdenied => hleast other (hbelow hother hdenied)⟩
      | cons name rest => exact absurd (lt_append_cons leaf.parts name rest) hnot
  mem_iff hdirectory script := by
    obtain ⟨children, hlook⟩ := isDirectory_iff.mp hdirectory
    have hsorted := sorted_leavesAt (h.look hlook) path
    rw [list_of_directory hlook, sift_eq, List.mem_filter, mem_takeWhile_iff_of_sorted hsorted,
      fileBelow_iff h hlook, Bool.and_eq_true]
    constructor
    · rintro ⟨⟨hmem, hless⟩, hfile, hscript⟩
      exact ⟨⟨hmem, hfile⟩, hscript, hless⟩
    · rintro ⟨⟨hmem, hfile⟩, hscript, hless⟩
      exact ⟨⟨hmem, hless⟩, hfile, hscript⟩
  sorted hdirectory := by
    obtain ⟨children, hlook⟩ := isDirectory_iff.mp hdirectory
    rw [list_of_directory hlook, sift_eq]
    exact ((sorted_leavesAt (h.look hlook) path).sublist (List.takeWhile_sublist _)).filter _

/-- **What several paths expand to.** -/
theorem expands_expand (volume : Volume) (paths : List Path) :
    volume.Expands paths (volume.expand paths) := by
  induction paths with
  | nil => exact .all fun path h => absurd h List.not_mem_nil
  | cons path rest ih =>
    rw [expand]
    cases hstop : (volume.list path).stop with
    | some stop =>
      have hfirst : volume.list path =
          { files := [] ++ (volume.list path).files, stop := some stop } := by
        rw [List.nil_append, ← hstop]
      dsimp only
      rw [hfirst]
      exact .upTo (fun other h => absurd h List.not_mem_nil) hstop
    | none =>
      have hcons : ∀ {before : List Path}, (∀ other ∈ before, (volume.list other).stop = none) →
          ∀ other ∈ path :: before, (volume.list other).stop = none := fun h =>
        List.forall_mem_cons.mpr ⟨hstop, h⟩
      generalize volume.expand rest = more at ih
      cases ih with
      | all hall => exact .all (hcons hall)
      | @upTo _ after _ _ hbefore hpath =>
        have hmore := @Expands.upTo _ _ after _ _ (hcons hbefore) hpath
        rwa [List.flatMap_cons, List.append_assoc] at hmore

/-- What is there expands to files. -/
theorem exists_file_of_mem_list (h : volume.Proper) {entry : Entry}
    (hlook : volume.look path = .ok entry) (hscript : script ∈ (volume.list path).files) :
    ∃ content, volume.look script = .ok (.file content) := by
  cases hdirectory : volume.isDirectory path with
  | true =>
    obtain ⟨⟨_, content, -, -, hcontent⟩, -⟩ :=
      ((expansion_list h path).mem_iff hdirectory script).mp hscript
    exact ⟨content, hcontent⟩
  | false =>
    have hseen : volume.look path ≠ .error .denied := by simp [hlook]
    rw [(expansion_list h path).kept hseen hdirectory, List.mem_singleton] at hscript
    cases entry with
    | file content => exact ⟨content, hscript ▸ hlook⟩
    | directory children => simp [isDirectory, hlook] at hdirectory
    | hidden => exact absurd rfl (Entry.ne_hidden_of_follow hlook)

/-- The paths that are listed consist of names. -/
theorem isName_of_mem_list (h : volume.Proper) (hpath : ∀ part ∈ path.parts, Path.IsName part)
    {entry : Entry} (hlook : volume.look path = .ok entry)
    (hscript : script ∈ (volume.list path).files) : ∀ part ∈ script.parts, Path.IsName part := by
  intro part hpart
  cases hdirectory : volume.isDirectory path with
  | false =>
    have hseen : volume.look path ≠ .error .denied := by simp [hlook]
    rw [(expansion_list h path).kept hseen hdirectory, List.mem_singleton] at hscript
    exact hpath part (hscript ▸ hpart)
  | true =>
    obtain ⟨⟨names, _, hnames, rfl, -⟩, -⟩ :=
      ((expansion_list h path).mem_iff hdirectory script).mp hscript
    rcases List.mem_append.mp hpart with hpart | hpart
    · exact hpath part hpart
    · exact (hnames part hpart).toIsName

/-! ### Texts -/

/-- The top of a proper volume is a directory. -/
theorem Proper.exists_top (h : volume.Proper) : ∃ children, volume.top = .directory children := by
  obtain ⟨children, hhere⟩ := h.here
  exact Entry.exists_directory_of_follow hhere

/-- A path to a file has a part. -/
theorem parts_ne_nil_of_file (h : volume.Proper) {content : Content}
    (hlook : volume.look path = .ok (.file content)) : path.parts ≠ [] := by
  intro hnil
  obtain ⟨children, hhere⟩ := h.here
  obtain ⟨others, htop⟩ := h.exists_top
  rw [look, lookPieces, hnil, List.append_nil] at hlook
  split_ifs at hlook with habsolute
  · rw [htop, Entry.follow] at hlook
    cases hlook
  · rw [hhere] at hlook
    cases hlook

/-- A text that names an entry gives a path to it. -/
theorem look_of_lookText (h : volume.Proper) {text : String} {entry : Entry}
    (htext : volume.lookText text.toList = .ok entry) :
    volume.look (Path.ofString text) = .ok entry := by
  rw [lookText] at htext
  split_ifs at htext with hempty
  rw [Path.head?_beq_slash, lookPieces] at htext
  rw [look, lookPieces, Path.ofString]
  split_ifs at htext ⊢ with habsolute
  · exact Entry.follow_filter htext
  · obtain ⟨children, hhere⟩ := h.here
    obtain ⟨higher, hhigher⟩ := Entry.exists_follow_append hhere
    rw [hhigher] at htext ⊢
    exact Entry.follow_filter htext

/-- The text of a path to an entry names it. -/
theorem lookText_of_look (h : volume.Proper) {entry : Entry} (hne : path.parts ≠ [])
    (hnames : ∀ part ∈ path.parts, Path.IsName part) (hlook : volume.look path = .ok entry) :
    volume.lookText path.text.toList = .ok entry := by
  have hpath : Path.ofChars path.chars = path := by
    have hread := Path.ofString_text hnames
    rwa [Path.ofString, Path.text, String.toList_ofList] at hread
  have hempty : path.chars.isEmpty = false := by
    obtain ⟨c, rest, htext, -⟩ := Path.exists_joinWith_eq_cons hne hnames
    rw [Path.chars_eq hne, htext]
    simp
  obtain ⟨children, htop⟩ := h.exists_top
  -- The empty pieces of a root stay at the top, which is a directory.
  have hstay : ∀ way, volume.top.follow [] ([] :: way) = volume.top.follow [] way := by
    intro way
    rw [htop, Entry.follow_cons, Entry.stepTo_of_not_isPart (by decide)]
  rw [look, lookPieces] at hlook
  rw [Path.text, String.toList_ofList, lookText, hempty, if_neg Bool.false_ne_true,
    Path.head?_beq_slash, hpath, lookPieces, Path.pieces_chars hne hnames, ← hlook, Path.isAbsolute]
  cases path.root with
  | here => rfl
  | single => exact hstay _
  | double => exact (hstay _).trans (hstay _)

end Volume

end ShellSurvey
