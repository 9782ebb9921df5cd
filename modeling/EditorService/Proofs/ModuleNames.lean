import EditorService.FileTree.Search
import EditorService.Proofs.DiskPaths
import Mathlib.Data.Nat.Find
import Mathlib.Logic.Function.Iterate

/-!
# The full names of modules

A module is named after its file, with the packages around it in front. `Search.packages` goes up from the directory of
the file for as long as there is a package, and takes the last segment of each path for the name of its directory.

Going up shortens a path by one segment (`segments_directory`), until only separators are left or nothing at all. There
the path stays as it is, so the walk ends exactly if one of the directories up to this point, the root or the current
directory, is no package. Otherwise no number of steps is enough.

**The law** (`dotted_name_of_packages`): if the walk ends after `k` packages, the name has the last `k` segments of the
directory. This is so whatever paths name something. On a disk that can follow the path, and for lookups by text, they are
the names of the packages around the file exactly if none of them is `.` or `..`.
-/

namespace EditorService

namespace Path

open EditorService.Text (split)

variable {p s : List Char}

/-! ## Segments -/

theorem segments_slash (p q : List Char) : segments (p ++ '/' :: q) = segments p ++ segments q := by
  rw [segments, Text.split_append, List.filter_append]
  rfl

theorem segments_of_notMem (hs : '/' ∉ s) (hne : s ≠ []) : segments s = [s] := by
  rw [segments, Text.split_of_notMem hs]
  simp [hne]

theorem segments_slashes (p : List Char) (n : Nat) : segments (p ++ List.replicate n '/') = segments p := by
  induction n with
  | zero => rw [List.replicate_zero, List.append_nil]
  | succ n ih =>
    rw [List.replicate_succ', ← List.append_assoc, segments_slash, ih]
    exact List.append_nil _

theorem segments_settle (p : List Char) : segments (settle p) = segments p := by
  rcases settle_cases p with ⟨-, heq⟩ | ⟨-, -, n, hn⟩
  · rw [heq]
  · conv_rhs => rw [hn, segments_slashes]

theorem settle_settle (p : List Char) : settle (settle p) = settle p := by
  rcases settle_cases p with ⟨-, heq⟩ | ⟨hne, hlast, -⟩
  · rw [heq, heq]
  · simpa using settle_append hne hlast 0

theorem settle_directory (p : List Char) : settle (directory p) = directory p := by
  by_cases hmem : '/' ∈ p
  · obtain ⟨front, last, rfl, hlast⟩ := exists_last_slash hmem
    rw [directory_slash hlast, settle_settle]
  · rw [directory_of_notMem hmem]
    rfl

theorem length_segments_le (p : List Char) : (segments p).length ≤ p.length := by
  induction p with
  | nil => exact Nat.le_refl 0
  | cons c rest ih =>
    obtain ⟨piece, pieces, hsplit⟩ := List.exists_cons_of_ne_nil (Text.split_ne_nil '/' rest)
    have hpieces : (pieces.filter fun s => !s.isEmpty).length ≤ rest.length := by
      refine Nat.le_trans ?_ ih
      rw [segments, hsplit]
      exact ((List.sublist_cons_self piece pieces).filter _).length_le
    by_cases hc : (c == '/') = true
    · have hsame : segments (c :: rest) = segments rest := by
        rw [segments, split, if_pos hc]
        rfl
      rw [hsame]
      exact Nat.le_succ_of_le ih
    · have hcons : segments (c :: rest) = (c :: piece) :: pieces.filter fun s => !s.isEmpty := by
        rw [segments, split, if_neg hc, hsplit]
        rfl
      rw [hcons]
      exact Nat.succ_le_succ hpieces

theorem length_segments_directory_le (p : List Char) : (segments (directory p)).length ≤ p.length := by
  refine Nat.le_trans ?_ (length_segments_le p)
  by_cases hmem : '/' ∈ p
  · obtain ⟨front, last, rfl, hlast⟩ := exists_last_slash hmem
    rw [directory_slash hlast, segments_settle, segments_slash, segments_slash, List.length_append, List.length_append]
    exact Nat.add_le_add_left (Nat.zero_le _) _
  · rw [directory_of_notMem hmem]
    exact Nat.zero_le _

/-- **A walk takes the segments of its path**; empty ones lead nowhere. -/
theorem walk_eq_foldl_segments (start : List (List Char)) (p : List Char) :
    walk start p = (segments p).foldl (addSegment true) start := by
  rw [walk, segments]
  generalize split '/' p = pieces
  induction pieces generalizing start with
  | nil => rfl
  | cons piece rest ih =>
    cases piece with
    | nil => exact ih start
    | cons c cs => exact ih _

theorem ne_nil_of_mem_segments (h : s ∈ segments p) : s ≠ [] := by
  simpa using (List.mem_filter.mp h).2

theorem notMem_of_mem_segments (h : s ∈ segments p) : '/' ∉ s := Text.notMem_of_mem_split (List.mem_filter.mp h).1

/-! ## Going up -/

/-- How a settled path ends: it has only separators, or a last segment. -/
theorem settled_cases (h : settle p = p) :
    segments p = [] ∧ directory p = p ∧ base p = [] ∨
      ∃ last, segments p = segments (directory p) ++ [last] ∧ base p = last := by
  by_cases hmem : '/' ∈ p
  · obtain ⟨front, last, rfl, hlast⟩ := exists_last_slash hmem
    have hdirectory : segments (directory (front ++ '/' :: last)) = segments front := by
      rw [directory_slash hlast, segments_settle, segments_slash]
      exact List.append_nil _
    by_cases hnil : last = []
    · -- Only a path without anything else ends in a separator.
      subst hnil
      rcases settle_cases (front ++ ['/']) with ⟨hall, -⟩ | ⟨-, hend, -⟩
      · refine .inl ⟨?_, by rw [directory_slash hlast, h], base_slash hlast front⟩
        have hslashes : front ++ ['/'] = [] ++ List.replicate (front ++ ['/']).length '/' := by
          refine List.eq_replicate_iff.mpr ⟨rfl, fun c hc => ?_⟩
          simpa using List.all_eq_true.mp hall c hc
        rw [hslashes, segments_slashes]
        rfl
      · rw [h] at hend
        exact absurd (by simp) hend
    · refine .inr ⟨last, ?_, base_slash hlast front⟩
      rw [hdirectory, segments_slash, segments_of_notMem hlast hnil]
  · have hbase : base p = p := by
      simp only [base, cutLast, Text.splitLast_of_notMem hmem]
    rw [directory_of_notMem hmem]
    by_cases hnil : p = []
    · subst hnil
      exact .inl ⟨rfl, rfl, rfl⟩
    · exact .inr ⟨p, segments_of_notMem hmem hnil, hbase⟩

/-- **Going up drops a segment**, if there is one. -/
theorem segments_directory (h : settle p = p) : segments (directory p) = (segments p).dropLast := by
  rcases settled_cases h with ⟨hnil, hsame, -⟩ | ⟨last, hsegments, -⟩
  · rw [hsame, hnil]
    rfl
  · rw [hsegments, List.dropLast_concat]

theorem settle_iterate (h : settle p = p) (i : Nat) : settle (directory^[i] p) = directory^[i] p := by
  cases i with
  | zero => exact h
  | succ i =>
    rw [Function.iterate_succ_apply']
    exact settle_directory _

theorem isAbsolute_iterate (p : List Char) (i : Nat) : isAbsolute (directory^[i] p) = isAbsolute p := by
  induction i generalizing p with
  | zero => rfl
  | succ i ih => rw [Function.iterate_succ_apply, ih, isAbsolute_directory]

theorem segments_iterate (h : settle p = p) (i : Nat) :
    segments (directory^[i] p) = (segments p).take ((segments p).length - i) := by
  induction i with
  | zero => exact List.take_length.symm
  | succ i ih =>
    rw [Function.iterate_succ_apply', segments_directory (settle_iterate h i), ih, List.dropLast_eq_take, List.take_take,
      List.length_take]
    congr 1
    omega

/-- At the top a path stays as it is. -/
theorem iterate_of_le (h : settle p = p) {i : Nat} (hi : (segments p).length ≤ i) :
    directory^[i] p = directory^[(segments p).length] p := by
  have hnil : segments (directory^[(segments p).length] p) = [] := by
    rw [segments_iterate h, Nat.sub_self, List.take_zero]
  have hfixed : directory (directory^[(segments p).length] p) = directory^[(segments p).length] p := by
    rcases settled_cases (settle_iterate h _) with ⟨-, hsame, -⟩ | ⟨last, hsegments, -⟩
    · exact hsame
    · rw [hnil] at hsegments
      exact absurd hsegments.symm (by simp)
  obtain ⟨j, rfl⟩ := Nat.exists_eq_add_of_le hi
  rw [Nat.add_comm, Function.iterate_add_apply, Function.iterate_fixed hfixed]

end Path

namespace Search

variable {there : String → Bool} {dir : List Char}

/-! ## The walk -/

theorem packages_succ (there : String → Bool) (steps : Nat) (dir : List Char) :
    packages there (steps + 1) dir =
      if isPackage there dir then (packages there steps (Path.directory dir)).map (· ++ [Path.base dir])
      else some [] := rfl

/-- If there are packages all the way up, no number of steps is enough. -/
theorem packages_endless (h : ∀ i, isPackage there (Path.directory^[i] dir) = true) (steps : Nat) :
    packages there steps dir = none := by
  induction steps generalizing dir with
  | zero => rfl
  | succ steps ih =>
    have hdir : isPackage there dir = true := h 0
    rw [packages_succ, if_pos hdir, ih fun i => h (i + 1)]
    rfl

/-- **A walk that ends**: it takes as many steps as there are packages, and gives the last segments of the directory. -/
theorem packages_of_chain (hdir : Path.settle dir = dir) {k : Nat}
    (hpackages : ∀ i < k, isPackage there (Path.directory^[i] dir) = true)
    (hend : isPackage there (Path.directory^[k] dir) = false) :
    k ≤ (Path.segments dir).length ∧ ∀ steps, packages there steps dir =
      if k < steps then some ((Path.segments dir).drop ((Path.segments dir).length - k)) else none := by
  induction k generalizing dir with
  | zero =>
    refine ⟨Nat.zero_le _, fun steps => ?_⟩
    cases steps with
    | zero => rfl
    | succ steps =>
      have hnot : ¬ isPackage there dir = true := by
        rw [show isPackage there dir = false from hend]
        exact Bool.false_ne_true
      rw [packages_succ, if_neg hnot, if_pos (Nat.succ_pos steps), Nat.sub_zero, List.drop_length]
  | succ k ih =>
    have hfirst : isPackage there dir = true := hpackages 0 (Nat.succ_pos k)
    obtain ⟨hle, hrest⟩ := ih (Path.settle_directory dir) (fun i hi => hpackages (i + 1) (Nat.succ_lt_succ hi)) hend
    rcases Path.settled_cases hdir with ⟨-, hsame, -⟩ | ⟨last, hsegments, hbase⟩
    · -- At the top the next directory is the same one, so it cannot be where the walk ends.
      have hstays : Path.directory^[k + 1] dir = dir := Function.iterate_fixed hsame (k + 1)
      rw [hstays, hfirst] at hend
      exact absurd hend.symm Bool.false_ne_true
    · have hlength : (Path.segments dir).length = (Path.segments (Path.directory dir)).length + 1 := by
        rw [hsegments, List.length_append, List.length_singleton]
      refine ⟨by omega, fun steps => ?_⟩
      cases steps with
      | zero => rfl
      | succ steps =>
        have hdrop : (Path.segments dir).drop ((Path.segments dir).length - (k + 1)) =
            (Path.segments (Path.directory dir)).drop ((Path.segments (Path.directory dir)).length - k) ++ [last] := by
          rw [hlength, Nat.add_sub_add_right, hsegments, List.drop_append_of_le_length (Nat.sub_le _ _)]
        rw [packages_succ, if_pos hfirst, hrest steps, hdrop, hbase]
        by_cases hsteps : k < steps
        · rw [if_pos hsteps, if_pos (Nat.succ_lt_succ hsteps)]
          rfl
        · rw [if_neg hsteps, if_neg fun h => hsteps (Nat.lt_of_succ_lt_succ h)]
          rfl

/-- Up to the top there is a first directory that is no package, or else there is none at all. -/
theorem endless_or_chain (there : String → Bool) (hdir : Path.settle dir = dir) :
    (∀ i ≤ (Path.segments dir).length, isPackage there (Path.directory^[i] dir) = true) ∧
        (∀ i, isPackage there (Path.directory^[i] dir) = true) ∨
      ∃ k ≤ (Path.segments dir).length, (∀ i < k, isPackage there (Path.directory^[i] dir) = true) ∧
        isPackage there (Path.directory^[k] dir) = false := by
  by_cases hall : ∀ i ≤ (Path.segments dir).length, isPackage there (Path.directory^[i] dir) = true
  · refine .inl ⟨hall, fun i => ?_⟩
    by_cases hi : i ≤ (Path.segments dir).length
    · exact hall i hi
    · rw [Path.iterate_of_le hdir (Nat.le_of_not_le hi)]
      exact hall _ (Nat.le_refl _)
  · push Not at hall
    obtain ⟨i, hi, hnot⟩ := hall
    have hfalse : isPackage there (Path.directory^[i] dir) = false := Bool.eq_false_iff.mpr hnot
    have hexists : ∃ i, isPackage there (Path.directory^[i] dir) = false := ⟨i, hfalse⟩
    exact .inr ⟨Nat.find hexists, (Nat.find_min' hexists hfalse).trans hi,
      fun j hj => (Bool.not_eq_false _).mp (Nat.find_min hexists hj), Nat.find_spec hexists⟩

/-! ## Packages around a place -/

/-- **The packages around a place have these names**: the place ends with them, the directories on the way to it are
packages from the first of them on, and the directory before is none. -/
def PackagesAt (there : String → Bool) (place names : List (List Char)) : Prop :=
  ∃ outer, place = outer ++ names ∧ isPackage there (Path.spell ['/'] outer) = false ∧
    ∀ inner, inner ≠ [] → inner <+: names → isPackage there (Path.spell ['/'] (outer ++ inner)) = true

end Search

namespace FileTree

open EditorService.Search (isPackage PackagesAt)

variable {t : FileTree} {dir p q : List Char}

theorem isAbsolute_init : Path.isAbsolute "__init__.py".toList = false := by decide

theorem placeOf_spell (t : FileTree) (p : List Char) : t.placeOf (Path.spell ['/'] (t.placeOf p)) = t.placeOf p := by
  rw [placeOf_of_isAbsolute (Path.isAbsolute_spell rfl _)]
  exact Path.place_spell rfl Path.isName_of_mem_place

/-- By its text, a directory is a package in all spellings or in none. -/
theorem isPackage_has_spell (hcurrent : Path.isAbsolute t.current.toList = true) (p : List Char) :
    isPackage t.has (Path.spell ['/'] (t.placeOf p)) = isPackage t.has p := by
  refine has_congr (Path.isAbsolute_append hcurrent _) (Path.append_ne_nil (by decide) _)
    (Path.isAbsolute_append hcurrent _) (Path.append_ne_nil (by decide) p) ?_
  rw [placeOf_append t _ isAbsolute_init, placeOf_append t p isAbsolute_init, placeOf_spell]

theorem isPackage_onDisk (t : FileTree) (p : List Char) :
    isPackage t.onDisk p = (isPackage t.has p && (t.passes p && t.standing (t.placeOf p))) := by
  have hinit : t.passesFrom (t.placeOf p) (Text.split '/' "__init__.py".toList) = t.standing (t.placeOf p) := by
    rw [Text.split_of_notMem (by decide), passesFrom_singleton]
  exact (t.onDisk_ofList _).trans (congrArg _ (by rw [passes_append t p isAbsolute_init, hinit]))

/-- On a disk this is so for a directory that it can follow the path to. -/
theorem isPackage_onDisk_spell (hcurrent : Path.isAbsolute t.current.toList = true) (h : t.passes p = true) :
    isPackage t.onDisk (Path.spell ['/'] (t.placeOf p)) = isPackage t.onDisk p := by
  have hspell : t.passes (Path.spell ['/'] (t.placeOf p)) = true :=
    (passes_spell rfl Path.isName_of_mem_place).mpr (grounded_placeOf h)
  rw [isPackage_onDisk, isPackage_onDisk, isPackage_has_spell hcurrent, placeOf_spell, hspell, h]

/-- The directory of a path can be followed if the path can. -/
theorem passesFrom_split_directory {start : List (List Char)} (h : t.passesFrom start (Text.split '/' p) = true) :
    t.passesFrom start (Text.split '/' (Path.directory p)) = true := by
  by_cases hmem : '/' ∈ p
  · obtain ⟨front, last, rfl, hlast⟩ := Path.exists_last_slash hmem
    have hfront : t.passesFrom start (Text.split '/' (front ++ ['/'])) = true := by
      rw [Text.split_append, passesFrom_append, Text.split_of_notMem hlast, passesFrom_singleton] at h
      rw [Text.split_append, passesFrom_append, Text.split_of_notMem List.not_mem_nil, passesFrom_singleton, h]
    rw [Path.directory_slash hlast]
    rcases Path.settle_cases (front ++ ['/']) with ⟨-, hsame⟩ | ⟨-, -, n, hn⟩
    · rw [hsame, hfront]
    · cases n with
      | zero =>
        rw [List.replicate_zero, List.append_nil] at hn
        rw [← hn, hfront]
      | succ n =>
        rw [hn, List.replicate_succ, Text.split_append, passesFrom_append, Bool.and_eq_true_iff] at hfront
        exact hfront.1
  · rw [Path.directory_of_notMem hmem]
    exact (t.passesFrom_singleton start []).trans (standing_of_passesFrom h (Text.split_ne_nil _ _))

theorem passes_directory (h : t.passes p = true) : t.passes (Path.directory p) = true := by
  cases hp : Path.isAbsolute p with
  | true =>
    rw [passes, Path.append_of_isAbsolute hp] at h
    rw [passes, Path.append_of_isAbsolute ((Path.isAbsolute_directory p).trans hp)]
    exact passesFrom_split_directory h
  | false =>
    rw [passes, passesFrom_split_append t [] _ hp, Bool.and_eq_true_iff] at h
    rw [passes, passesFrom_split_append t [] _ ((Path.isAbsolute_directory p).trans hp), h.1,
      passesFrom_split_directory h.2]
    rfl

theorem passes_iterate (h : t.passes p = true) (i : Nat) : t.passes (Path.directory^[i] p) = true := by
  induction i with
  | zero => exact h
  | succ i ih =>
    rw [Function.iterate_succ_apply']
    exact passes_directory ih

theorem placeOf_eq_foldl (t : FileTree) (p : List Char) :
    t.placeOf p = (Path.segments p).foldl (Path.addSegment true)
      (if Path.isAbsolute p then [] else Path.place t.current.toList) := by
  rw [← Path.walk_eq_foldl_segments]
  cases hp : Path.isAbsolute p with
  | true => exact placeOf_of_isAbsolute hp t
  | false => exact placeOf_of_relative hp t

/-- Names lead down from where the path without them leads. -/
theorem placeOf_iterate (t : FileTree) (hdir : Path.settle dir = dir) {i j : Nat} (hj : j ≤ i)
    (hi : i ≤ (Path.segments dir).length)
    (hnames : ∀ s ∈ (Path.segments dir).drop ((Path.segments dir).length - i), Path.IsName s) :
    t.placeOf (Path.directory^[i - j] dir) = t.placeOf (Path.directory^[i] dir) ++
      ((Path.segments dir).drop ((Path.segments dir).length - i)).take j := by
  have hsplit : (Path.segments dir).take ((Path.segments dir).length - (i - j)) =
      (Path.segments dir).take ((Path.segments dir).length - i) ++
        ((Path.segments dir).drop ((Path.segments dir).length - i)).take j := by
    rw [← List.take_add]
    congr 1
    omega
  rw [placeOf_eq_foldl, placeOf_eq_foldl, Path.segments_iterate hdir, Path.segments_iterate hdir, Path.isAbsolute_iterate,
    Path.isAbsolute_iterate, hsplit, List.foldl_append, Path.foldl_names fun s hs => hnames s (List.mem_of_mem_take hs)]

/-- **The last segments are the names of the packages around the directory** exactly if all of them are names, provided that
the directories above are packages in all spellings or in none. -/
theorem packagesAt_iff {there : String → Bool}
    (hspell : ∀ i, isPackage there (Path.spell ['/'] (t.placeOf (Path.directory^[i] dir))) =
      isPackage there (Path.directory^[i] dir))
    (hdir : Path.settle dir = dir) {k : Nat} (hk : k ≤ (Path.segments dir).length)
    (hpackages : ∀ i < k, isPackage there (Path.directory^[i] dir) = true)
    (hend : isPackage there (Path.directory^[k] dir) = false) :
    PackagesAt there (t.placeOf dir) ((Path.segments dir).drop ((Path.segments dir).length - k)) ↔
      ∀ s ∈ (Path.segments dir).drop ((Path.segments dir).length - k), s ≠ ['.'] ∧ s ≠ ['.', '.'] := by
  constructor
  · rintro ⟨outer, hplace, -⟩ s hs
    have hname : Path.IsName s := Path.isName_of_mem_place s (by
      rw [← placeOf, hplace]
      exact List.mem_append_right _ hs)
    exact ⟨hname.ne_dot, hname.ne_dots⟩
  · intro hdots
    have hnames : ∀ s ∈ (Path.segments dir).drop ((Path.segments dir).length - k), Path.IsName s := fun s hs =>
      ⟨Path.ne_nil_of_mem_segments (List.mem_of_mem_drop hs), (hdots s hs).1, (hdots s hs).2,
        Path.notMem_of_mem_segments (List.mem_of_mem_drop hs)⟩
    have hlength : ((Path.segments dir).drop ((Path.segments dir).length - k)).length = k := by
      rw [List.length_drop]
      omega
    refine ⟨t.placeOf (Path.directory^[k] dir), ?_, ?_, fun inner hne hinner => ?_⟩
    · have hwhole := t.placeOf_iterate hdir (Nat.le_refl k) hk hnames
      rwa [Nat.sub_self, List.take_of_length_le (Nat.le_of_eq hlength)] at hwhole
    · rw [hspell, hend]
    · have hle : inner.length ≤ k := hlength ▸ hinner.length_le
      have hpos : 0 < inner.length := List.length_pos_iff.mpr hne
      rw [List.prefix_iff_eq_take.mp hinner, ← t.placeOf_iterate hdir hle hk hnames, hspell]
      exact hpackages _ (by omega)

end FileTree

namespace Search

/-- **The dotted name of a module.** Whatever paths name something, the walk to it never ends exactly if all directories from
the file's own one up to the top are packages: the root, or the current directory for a path that is seen from there.
Otherwise there is a number `k` of packages before the first directory that is none, and the name is made of the last `k`
segments of the file's directory and of the file's own name.

Where paths are looked up by their text, these segments are the names of the packages around the file exactly if there is no
dot or pair of dots among them. On a disk it is the same, if the disk can follow the path of the directory; otherwise there
are no packages in the name. -/
theorem dotted_name_of_packages (there : String → Bool) (path : String) :
    let dir := Path.directory path.toList
    let depth := (Path.segments dir).length
    ((∀ steps, packages there steps dir = none) ↔ ∀ i ≤ depth, isPackage there (Path.directory^[i] dir) = true) ∧
    (dottedName? there path = none ↔ ∀ i ≤ depth, isPackage there (Path.directory^[i] dir) = true) ∧
    ∀ k, (∀ i < k, isPackage there (Path.directory^[i] dir) = true) →
      isPackage there (Path.directory^[k] dir) = false →
      let names := (Path.segments dir).drop (depth - k)
      names.length = k ∧
      dottedName? there path = some (String.ofList (Text.join ['.'] (names ++ [Path.stem (Path.base path.toList)]))) ∧
      ∀ t : FileTree, Path.isAbsolute t.current.toList = true →
        (there = t.has ∨ there = t.onDisk ∧ t.passes dir = true →
          (PackagesAt there (t.placeOf dir) names ↔ ∀ s ∈ names, s ≠ ['.'] ∧ s ≠ ['.', '.'])) ∧
        (there = t.onDisk → t.passes dir = false → names = []) := by
  intro dir depth
  have hdir : Path.settle dir = dir := Path.settle_directory path.toList
  have hdepth : depth ≤ path.toList.length := Path.length_segments_directory_le path.toList
  have hname : dottedName? there path = (packages there (path.toList.length + 1) dir).map fun outer =>
      String.ofList (Text.join ['.'] (outer ++ [Path.stem (Path.base path.toList)])) := rfl
  rcases endless_or_chain there hdir with ⟨hall, hforever⟩ | ⟨n, hn, hpackages, hend⟩
  · have hnone := packages_endless hforever
    refine ⟨iff_of_true hnone hall, iff_of_true (by rw [hname, hnone, Option.map_none]) hall, fun k _ hend => ?_⟩
    rw [hforever k] at hend
    cases hend
  · obtain ⟨-, hwalk⟩ := packages_of_chain hdir hpackages hend
    have hnot : ¬ ∀ i ≤ depth, isPackage there (Path.directory^[i] dir) = true := by
      intro hall
      rw [hall n hn] at hend
      cases hend
    have hends : packages there (path.toList.length + 1) dir ≠ none := by
      rw [hwalk, if_pos (by omega)]
      exact Option.some_ne_none _
    refine ⟨iff_of_false (fun hnone => hends (hnone _)) hnot, iff_of_false ?_ hnot, fun k hbefore hfirst => ?_⟩
    · rw [hname, Option.map_eq_none_iff]
      exact hends
    · obtain ⟨hk, hsteps⟩ := packages_of_chain hdir hbefore hfirst
      refine ⟨by rw [List.length_drop]; omega, ?_, fun t hcurrent => ⟨fun hlookup => ?_, fun hdisk hlost => ?_⟩⟩
      · rw [hname, hsteps, if_pos (by omega)]
        rfl
      · refine FileTree.packagesAt_iff (fun i => ?_) hdir hk hbefore hfirst
        rcases hlookup with rfl | ⟨rfl, hpasses⟩
        · exact FileTree.isPackage_has_spell hcurrent _
        · exact FileTree.isPackage_onDisk_spell hcurrent (FileTree.passes_iterate hpasses i)
      · -- A directory that cannot be followed is no package, so the walk ends where it starts.
        have hfirst' : isPackage there dir = false := by
          rw [hdisk, FileTree.isPackage_onDisk, hlost, Bool.false_and, Bool.and_false]
        have hzero : k = 0 := by
          by_contra hne
          have htrue := hbefore 0 (Nat.pos_of_ne_zero hne)
          rw [show Path.directory^[0] dir = dir from rfl, hfirst'] at htrue
          cases htrue
        rw [hzero, Nat.sub_zero, List.drop_length]

end Search

namespace FileTree

open EditorService.Search (dotted_name_of_packages PackagesAt)

/-- A package, and a root that is a package itself. -/
def onePackage : FileTree where
  files := [("/ws/pk/__init__.py", .text "")]

@[inherit_doc onePackage] def rootPackage : FileTree where
  files := [("/__init__.py", .text "")]

/-- A package is named. A dot in the path is named too, and is no package. Below a root that is a package, and in a current
directory that is one, no number of steps is enough. On a disk, a path that cannot be followed has no packages in its
name. -/
theorem dotted_name_of_packages_four_walks :
    (Search.dottedName? onePackage.onDisk "/ws/pk/m.py" = some "pk.m" ∧
      PackagesAt onePackage.onDisk ["ws".toList, "pk".toList] ["pk".toList]) ∧
    (Search.dottedName? onePackage.onDisk "/ws/pk/./m.py" = some "pk...m" ∧
      ¬ PackagesAt onePackage.onDisk ["ws".toList, "pk".toList] ["pk".toList, ".".toList]) ∧
    ((∀ steps, Search.packages rootPackage.has steps "/".toList = none) ∧ rootPackage.dottedName? "main.py" = none) ∧
    Search.dottedName? onePackage.onDisk "/ws/pk/no/../m.py" = some "m" := by
  have hcurrent : Path.isAbsolute onePackage.current.toList = true := by decide +kernel
  have hdir : Path.directory "/ws/pk/m.py".toList = "/ws/pk".toList := by decide +kernel
  have hdot : Path.directory "/ws/pk/./m.py".toList = "/ws/pk/.".toList := by decide +kernel
  have hplace : onePackage.placeOf "/ws/pk".toList = ["ws".toList, "pk".toList] := by decide +kernel
  have hsame : onePackage.placeOf "/ws/pk/.".toList = ["ws".toList, "pk".toList] := by decide +kernel
  refine ⟨?_, ?_, ⟨?_, ?_⟩, ?_⟩
  · obtain ⟨-, -, hchain⟩ := dotted_name_of_packages onePackage.onDisk "/ws/pk/m.py"
    obtain ⟨-, hname, htree⟩ := hchain 1 (by decide +kernel) (by decide +kernel)
    have hpackages := (htree onePackage hcurrent).1 (.inr ⟨rfl, by decide +kernel⟩)
    rw [hdir, hplace] at hpackages
    exact ⟨hname.trans (by decide +kernel), hpackages.mpr (by decide +kernel)⟩
  · obtain ⟨-, -, hchain⟩ := dotted_name_of_packages onePackage.onDisk "/ws/pk/./m.py"
    obtain ⟨-, hname, htree⟩ := hchain 2 (by decide +kernel) (by decide +kernel)
    have hpackages := (htree onePackage hcurrent).1 (.inr ⟨rfl, by decide +kernel⟩)
    rw [hdot, hsame] at hpackages
    exact ⟨hname.trans (by decide +kernel), fun h => absurd (hpackages.mp h) (by decide +kernel)⟩
  · obtain ⟨hendless, -⟩ := dotted_name_of_packages rootPackage.has "/a.py"
    exact hendless.mpr (by decide +kernel)
  · obtain ⟨-, hendless, -⟩ := dotted_name_of_packages rootPackage.has "main.py"
    exact hendless.mpr (by decide +kernel)
  · obtain ⟨-, -, hchain⟩ := dotted_name_of_packages onePackage.onDisk "/ws/pk/no/../m.py"
    obtain ⟨-, hname, htree⟩ := hchain 0 (fun i hi => absurd hi (Nat.not_lt_zero i)) (by decide +kernel)
    exact hname.trans (by decide +kernel)

end FileTree

end EditorService
