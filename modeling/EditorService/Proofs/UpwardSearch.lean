import EditorService.Proofs.DiskPaths
import EditorService.Workspace
import Mathlib.Data.List.Infix

/-!
# Searches from a document towards its root

Settings files and project files are looked for from the directory of a document on. The search is told how to reach this
directory from the root, and drops the steps of this route one after another (`FileTree.searchUp`). Where it looks is
`Path.way`: it goes from the directory up to the first one that also contains the root, and from there down to the root.

* In a document below the root the way only goes up, so the nearest directory counts (`nearest_directory_wins`).
* Beside the root it leads through directories that have nothing to do with it. All of them but the last, which is the
  root, are outside of it, and the search finds what they hold (`search_beside_root_iff`).

A file may be found under a longer name than its own, with `.` and `..` in it; both laws compare the shortest forms.
-/

namespace EditorService

namespace Path

open EditorService.Text (split join)

/-! ## Ways between places -/

/-- **A directory contains a path**: it is the directory that the path leads to, or one above it. -/
def Contains (dir p : List Char) : Prop := isAbsolute dir = true ∧ isAbsolute p = true ∧ place dir <+: place p

instance (dir p : List Char) : Decidable (Contains dir p) :=
  inferInstanceAs (Decidable (_ ∧ _ ∧ _))

/-- The places from `there` up to the last one that is also above `here`, and from it down to `here`. -/
def placesBetween (here there : List (List Char)) : List (List (List Char)) :=
  (there.inits.drop (sharedLength here there + 1)).reverse ++ here.inits.drop (sharedLength here there)

/-- **The way from a directory to a root**: up to the first directory that contains both, and down to the root. -/
def way (root dir : List Char) : List (List Char) := (placesBetween (place root) (place dir)).map (spell root)

theorem exists_shared (here there : List (List Char)) :
    ∃ common down up, here = common ++ down ∧ there = common ++ up ∧ sharedLength down up = 0 := by
  induction here generalizing there with
  | nil => exact ⟨[], [], there, rfl, rfl, rfl⟩
  | cons a as ih =>
    cases there with
    | nil => exact ⟨[], a :: as, [], rfl, rfl, rfl⟩
    | cons b bs =>
      by_cases hab : a = b
      · obtain ⟨common, down, up, rfl, rfl, hshared⟩ := ih bs
        exact ⟨a :: common, down, up, rfl, by rw [hab]; rfl, hshared⟩
      · exact ⟨[], a :: as, b :: bs, rfl, rfl, by simp [sharedLength, hab]⟩

theorem sharedLength_append (common down up : List (List Char)) :
    sharedLength (common ++ down) (common ++ up) = common.length + sharedLength down up := by
  induction common with
  | nil => simp
  | cons a as ih =>
    simp only [List.cons_append, sharedLength, beq_self_eq_true, if_true, ih, List.length_cons]
    omega

theorem inits_eq_cons (l : List (List Char)) : l.inits = [] :: l.inits.tail := by cases l <;> rfl

theorem inits_concat (front : List (List Char)) (last : List Char) :
    (front ++ [last]).inits = front.inits ++ [front ++ [last]] := by
  rw [List.inits_append]
  rfl

theorem drop_inits_append (a b : List (List Char)) : (a ++ b).inits.drop a.length = b.inits.map (a ++ ·) := by
  induction a with
  | nil => simp
  | cons x xs ih =>
    rw [List.cons_append, List.inits_cons, List.length_cons, List.drop_succ_cons, ← List.map_drop, ih, List.map_map]
    rfl

section

variable {common down up : List (List Char)}

theorem sharedLength_common (hshared : sharedLength down up = 0) :
    sharedLength (common ++ down) (common ++ up) = common.length := by
  rw [sharedLength_append, hshared, Nat.add_zero]

theorem placesBetween_append (common : List (List Char)) (hshared : sharedLength down up = 0) :
    placesBetween (common ++ down) (common ++ up) =
      (up.inits.tail.map (common ++ ·)).reverse ++ down.inits.map (common ++ ·) := by
  rw [placesBetween, sharedLength_common hshared, drop_inits_append, ← List.drop_drop, drop_inits_append, List.drop_one,
    List.map_tail]

/-- The steps from `here` to `there`: up to the last place that they share, and down from it. -/
def stepsBetween (here there : List (List Char)) : List (List Char) :=
  List.replicate (here.length - sharedLength here there) ['.', '.'] ++ there.drop (sharedLength here there)

theorem stepsBetween_append (hshared : sharedLength down up = 0) :
    stepsBetween (common ++ down) (common ++ up) = List.replicate down.length ['.', '.'] ++ up := by
  rw [stepsBetween, sharedLength_common hshared, List.length_append, Nat.add_sub_cancel_left, List.drop_left]

theorem addSegment_dots_append {last : List Char} (h : ∀ s ∈ common ++ (down ++ [last]), IsName s) :
    addSegment true (common ++ (down ++ [last])) ['.', '.'] = common ++ down ∧ ∀ s ∈ common ++ down, IsName s := by
  rw [addSegment_dots h]
  rw [← List.append_assoc] at h ⊢
  exact ⟨List.dropLast_concat, fun s hs => h s (List.mem_append_left _ hs)⟩

theorem foldl_dots (h : ∀ s ∈ common ++ down, IsName s) :
    (List.replicate down.length ['.', '.']).foldl (addSegment true) (common ++ down) = common := by
  induction down using List.reverseRecOn with
  | nil => exact List.append_nil common
  | append_singleton front last ih =>
    obtain ⟨hdots, hfront⟩ := addSegment_dots_append h
    rw [List.length_append, List.length_singleton, List.replicate_succ, List.foldl_cons, hdots, ih hfront]

/-- The places on the way up, from the last one. -/
theorem map_foldl_dots (h : ∀ s ∈ common ++ down, IsName s) :
    (List.replicate down.length ['.', '.']).inits.reverse.map (·.foldl (addSegment true) (common ++ down)) =
      down.inits.map (common ++ ·) := by
  induction down using List.reverseRecOn with
  | nil => rfl
  | append_singleton front last ih =>
    obtain ⟨hdots, hfront⟩ := addSegment_dots_append h
    rw [List.length_append, List.length_singleton, List.replicate_succ, List.inits_cons, List.reverse_cons,
      List.map_append, ← List.map_reverse, List.map_map, inits_concat, List.map_append]
    simp only [Function.comp_def, List.foldl_cons, hdots, ih hfront]
    rfl

end

/-- **The places of the directories that are searched.** -/
theorem map_foldl_steps {here there : List (List Char)} (hhere : ∀ s ∈ here, IsName s) (hthere : ∀ s ∈ there, IsName s) :
    (stepsBetween here there).inits.reverse.map (·.foldl (addSegment true) here) = placesBetween here there := by
  obtain ⟨common, down, up, rfl, rfl, hshared⟩ := exists_shared here there
  rw [stepsBetween_append hshared, placesBetween_append common hshared, List.inits_append, List.reverse_append,
    List.map_append, map_foldl_dots hhere]
  congr 1
  rw [← List.map_reverse, List.map_map, ← List.map_reverse]
  refine List.map_congr_left fun x hx => ?_
  have hinit : x <+: up := (List.mem_inits x up).mp (List.mem_of_mem_tail (List.mem_reverse.mp hx))
  have hnames : ∀ s ∈ x, IsName s := fun s hs => hthere s (List.mem_append_right _ (hinit.subset hs))
  simp only [Function.comp_def, List.foldl_append, foldl_dots hhere, foldl_names hnames]

/-! ## Routes as texts -/

theorem relative_of_isAbsolute {p start : List Char} (hp : isAbsolute p = true) (hstart : isAbsolute start = true) :
    relative p start = .ok (if (stepsBetween (place start) (place p)).isEmpty then ['.']
      else join ['/'] (stepsBetween (place start) (place p))) := by
  have hne : p.isEmpty = false := by simpa using ne_nil_of_isAbsolute hp
  simp only [relative, absolute, hne, append_of_isAbsolute hp, append_of_isAbsolute hstart, segments_normalize hp,
    segments_normalize hstart, stepsBetween]
  rfl

theorem notMem_of_mem_steps {here there : List (List Char)} (hthere : ∀ s ∈ there, IsName s) :
    ∀ s ∈ stepsBetween here there, '/' ∉ s := by
  intro s hs
  rcases List.mem_append.mp hs with hs | hs
  · rw [List.eq_of_mem_replicate hs]
    decide
  · exact (hthere s (List.mem_of_mem_drop hs)).whole

variable {root : List Char} {segs : List (List Char)}

theorem place_appendAll (hsegs : ∀ s ∈ segs, '/' ∉ s) (root : List Char) :
    place (appendAll root segs) = segs.foldl (addSegment true) (place root) := by
  induction segs generalizing root with
  | nil => rfl
  | cons seg rest ih =>
    have hseg := hsegs seg List.mem_cons_self
    have hstep : place (append root seg) = addSegment true (place root) seg := by
      rw [place_append root (isAbsolute_of_notMem hseg), walk_of_notMem hseg]
    rw [List.foldl_cons, ← hstep]
    exact ih (fun s hs => hsegs s (List.mem_cons_of_mem seg hs)) (append root seg)

theorem rootOf_appendAll (hsegs : ∀ s ∈ segs, '/' ∉ s) (hroot : isAbsolute root = true) :
    isAbsolute (appendAll root segs) = true ∧ rootOf (appendAll root segs) = rootOf root := by
  induction segs generalizing root with
  | nil => exact ⟨hroot, rfl⟩
  | cons seg rest ih =>
    have hseg := isAbsolute_of_notMem (hsegs seg List.mem_cons_self)
    rw [← rootOf_append_path hroot hseg]
    exact ih (fun s hs => hsegs s (List.mem_cons_of_mem seg hs)) (isAbsolute_append hroot seg)

theorem normalize_appendAll (hsegs : ∀ s ∈ segs, '/' ∉ s) (hroot : isAbsolute root = true) :
    normalize (appendAll root segs) = spell root (segs.foldl (addSegment true) (place root)) := by
  obtain ⟨habsolute, hsame⟩ := rootOf_appendAll hsegs hroot
  rw [normalize_of_isAbsolute habsolute, spell, hsame, place_appendAll hsegs]
  rfl

/-- **The way, as the search spells its directories.** -/
theorem map_normalize_steps (hroot : isAbsolute root = true) (dir : List Char) :
    ((stepsBetween (place root) (place dir)).inits.reverse.map (appendAll root)).map normalize = way root dir := by
  rw [way, ← map_foldl_steps isName_of_mem_place isName_of_mem_place, List.map_map, List.map_map]
  refine List.map_congr_left fun segs hsegs => ?_
  have hsteps : segs <+: stepsBetween (place root) (place dir) := (List.mem_inits _ _).mp (List.mem_reverse.mp hsegs)
  exact normalize_appendAll (fun s hs => notMem_of_mem_steps isName_of_mem_place s (hsteps.subset hs)) hroot

end Path

namespace Search

variable {there : String → Bool} {names : List String}

/-! ## Searches along directories -/

/-- The names that exist in the first directory that holds any of them. -/
def firstIn (there : String → Bool) (names : List String) : List (List Char) → List String
  | [] => []
  | dir :: rest => if (namesIn there dir names).isEmpty then firstIn there names rest else namesIn there dir names

theorem searchUp_reverse (there : String → Bool) (names : List String) (first : List Char) (rest : List (List Char)) :
    searchUp there names (first :: rest).reverse =
      firstIn there names (rest.inits.reverse.map (Path.appendAll first)) := by
  induction rest using List.reverseRecOn with
  | nil =>
    simp [searchUp, firstIn, chainEnd, Path.appendAll]
  | append_singleton front last ih =>
    have hreverse : (first :: (front ++ [last])).reverse = last :: (first :: front).reverse := by simp
    have hinits : (front ++ [last]).inits.reverse = (front ++ [last]) :: front.inits.reverse := by
      rw [Path.inits_concat, List.reverse_append, List.reverse_singleton, List.singleton_append]
    rw [hreverse, hinits, List.map_cons, searchUp, firstIn, ih, ← hreverse, List.reverse_reverse]
    rfl

theorem firstIn_cases (there : String → Bool) (names : List String) (dirs : List (List Char)) :
    firstIn there names dirs = [] ∧ (∀ dir ∈ dirs, namesIn there dir names = []) ∨
      ∃ before dir after, dirs = before ++ dir :: after ∧ (∀ d ∈ before, namesIn there d names = []) ∧
        namesIn there dir names ≠ [] ∧ firstIn there names dirs = namesIn there dir names := by
  induction dirs with
  | nil => exact .inl ⟨rfl, fun _ h => absurd h List.not_mem_nil⟩
  | cons dir rest ih =>
    by_cases hdir : namesIn there dir names = []
    · have hskip : firstIn there names (dir :: rest) = firstIn there names rest := by
        rw [firstIn, hdir]
        rfl
      rw [hskip]
      rcases ih with ⟨hnone, hall⟩ | ⟨before, found, after, rfl, hbefore, hfound, hfirst⟩
      · exact .inl ⟨hnone, List.forall_mem_cons.mpr ⟨hdir, hall⟩⟩
      · exact .inr ⟨dir :: before, found, after, rfl, List.forall_mem_cons.mpr ⟨hdir, hbefore⟩, hfound, hfirst⟩
    · refine .inr ⟨[], dir, rest, rfl, fun _ h => absurd h List.not_mem_nil, hdir, ?_⟩
      have hsome : ¬ (namesIn there dir names).isEmpty = true := fun h => hdir (List.isEmpty_iff.mp h)
      rw [firstIn, if_neg hsome]

/-! ## Entries, up to spelling -/

/-- **Two directories look alike** to a search: each entry is in both or in neither. -/
def Alike (there : String → Bool) (dir other : List Char) : Prop :=
  ∀ name, there (String.ofList (Path.append dir name)) = there (String.ofList (Path.append other name))

section

variable {dir other : List Char}

theorem Alike.namesIn_eq_nil (h : Alike there dir other) :
    namesIn there dir names = [] ↔ namesIn there other names = [] := by
  simp only [namesIn, List.filter_eq_nil_iff, List.forall_mem_map, h _]

theorem Alike.firstIn_twice (h : Alike there dir other) :
    firstIn there names [dir, other] = firstIn there names [dir] := by
  by_cases hnone : namesIn there dir names = []
  · have hagain := h.namesIn_eq_nil.mp hnone
    simp [firstIn, hnone, hagain]
  · simp [firstIn, hnone]

theorem Alike.normalized_namesIn (h : Alike there dir other) (hdir : Path.isAbsolute dir = true)
    (hother : Path.isAbsolute other = true) (hplace : Path.place dir = Path.place other)
    (hroot : Path.rootOf dir = Path.rootOf other) :
    (namesIn there dir names).map Path.normalized = (namesIn there other names).map Path.normalized := by
  have hshort : ∀ name, Path.normalize (Path.append dir name) = Path.normalize (Path.append other name) := by
    intro name
    cases hname : Path.isAbsolute name with
    | true => rw [Path.append_of_isAbsolute hname, Path.append_of_isAbsolute hname]
    | false =>
      refine Path.normalize_congr (Path.isAbsolute_append hother name) ?_ ?_
      · rw [Path.rootOf_append_path hdir hname, Path.rootOf_append_path hother hname, hroot]
      · rw [Path.place_append dir hname, Path.place_append other hname, hplace]
  have hthere : (there ∘ fun n : String => String.ofList (Path.append dir n.toList)) =
      there ∘ fun n : String => String.ofList (Path.append other n.toList) :=
    funext fun n => h n.toList
  simp only [namesIn, List.filter_map, List.map_map, hthere]
  refine List.map_congr_left fun n _ => ?_
  simp only [Function.comp_apply, Path.normalized, String.toList_ofList, hshort]

end

/-- A directory in shortest form has the entries of the directory. -/
theorem normalized_namesIn_normalize {dir : List Char} (hdir : Path.isAbsolute dir = true)
    (h : Alike there dir (Path.normalize dir)) :
    (namesIn there dir names).map Path.normalized = (namesIn there (Path.normalize dir) names).map Path.normalized :=
  h.normalized_namesIn hdir (Path.isAbsolute_normalize hdir) (Path.place_normalize hdir).symm
    (Path.rootOf_normalize hdir).symm

/-- Whether segments lead first up and then down. A single dot leads nowhere. -/
def IsRoute (segs : List (List Char)) : Prop :=
  segs = [['.']] ∨ ∃ n names, (∀ s ∈ names, Path.IsName s) ∧ segs = List.replicate n ['.', '.'] ++ names

/-- **Routes from a directory look as their text says**: what a route leads to looks like its shortest form. -/
def SeesRoutes (there : String → Bool) (root : List Char) : Prop :=
  ∀ segs, IsRoute segs → Alike there (Path.appendAll root segs) (Path.normalize (Path.appendAll root segs))

theorem IsRoute.notMem {segs : List (List Char)} (h : IsRoute segs) : ∀ s ∈ segs, '/' ∉ s := by
  rcases h with rfl | ⟨n, names, hnames, rfl⟩
  · decide
  · intro s hs
    rcases List.mem_append.mp hs with hs | hs
    · rw [List.eq_of_mem_replicate hs]
      decide
    · exact (hnames s hs).whole

/-- The steps of a search are routes. -/
theorem isRoute_of_steps {here there : List (List Char)} (hthere : ∀ s ∈ there, Path.IsName s) {segs : List (List Char)}
    (h : segs <+: Path.stepsBetween here there) : IsRoute segs := by
  rcases List.prefix_or_prefix_of_prefix h (List.prefix_append _ _) with hup | ⟨rest, rfl⟩
  · refine .inr ⟨segs.length, [], fun _ hs => absurd hs List.not_mem_nil, ?_⟩
    rw [List.append_nil]
    exact List.eq_replicate_iff.mpr ⟨rfl, fun s hs => List.eq_of_mem_replicate (hup.subset hs)⟩
  · have hrest := (List.prefix_append_right_inj _).mp h
    exact .inr ⟨_, rest, fun s hs => hthere s (List.mem_of_mem_drop (hrest.subset hs)), rfl⟩

/-! ## Where a search looks -/

section

variable {root path : String} (hroot : Path.isAbsolute root.toList = true) (hpath : Path.isAbsolute path.toList = true)

include hroot hpath

theorem findParents_of_relative {rest : List Char}
    (hrest : Path.relative (Path.directory path.toList) root.toList = .ok rest) (there : String → Bool)
    (names : List String) :
    findParents there root path names =
      .ok (firstIn there names ((Text.split '/' rest).inits.reverse.map (Path.appendAll root.toList))) := by
  have hstart : (root.toList.isEmpty || path.toList.isEmpty || root.toList.head? != path.toList.head?) = false := by
    have hsame : root.toList.head? = path.toList.head? := (beq_iff_eq.mp hroot).trans (beq_iff_eq.mp hpath).symm
    simp [hsame, Path.ne_nil_of_isAbsolute hroot, Path.ne_nil_of_isAbsolute hpath]
  rw [← searchUp_reverse]
  simp only [findParents, hstart, Bool.false_eq_true, if_false, chainTo, hrest]
  rfl

/-- A search looks in directories that routes from the root lead to, one after another. They are those of the way. -/
theorem findParents_firstIn :
    ∃ routes : List (List (List Char)), (∀ segs ∈ routes, IsRoute segs) ∧
      (routes.map (Path.appendAll root.toList)).map Path.normalize =
        Path.way root.toList (Path.directory path.toList) ∧
      ∀ (there : String → Bool) names, SeesRoutes there root.toList →
        findParents there root path names = .ok (firstIn there names (routes.map (Path.appendAll root.toList))) := by
  have hrelative := Path.relative_of_isAbsolute ((Path.isAbsolute_directory path.toList).trans hpath) hroot
  have hway := Path.map_normalize_steps hroot (Path.directory path.toList)
  have hroutes : ∀ segs,
      segs <+: Path.stepsBetween (Path.place root.toList) (Path.place (Path.directory path.toList)) → IsRoute segs :=
    fun _ => isRoute_of_steps Path.isName_of_mem_place
  generalize Path.stepsBetween (Path.place root.toList) (Path.place (Path.directory path.toList)) = steps at *
  have hfind := fun there names => findParents_of_relative hroot hpath hrelative there names
  by_cases hsteps : steps = []
  · -- The document lies in the root itself, which is searched twice, the first time with a dot behind it.
    subst hsteps
    have hdot : IsRoute [['.']] := .inl rfl
    have hsame := (Path.rootOf_appendAll hdot.notMem hroot).2
    have hplace : Path.place (Path.appendAll root.toList [['.']]) = Path.place root.toList :=
      Path.place_appendAll hdot.notMem root.toList
    have hnormalize := Path.normalize_congr hroot hsame hplace
    refine ⟨[[['.']]], by simpa using hdot, ?_, fun there names hsees => (hfind there names).trans (congrArg Except.ok ?_)⟩
    · rw [← hway]
      exact congrArg (fun dir => [dir]) hnormalize
    · have hroot' := hsees [] (hroutes [] List.nil_prefix)
      have hdots := hsees _ hdot
      rw [hnormalize] at hdots
      exact (show Alike there _ root.toList from fun name => (hdots name).trans (hroot' name).symm).firstIn_twice
  · refine ⟨steps.inits.reverse, ?_, hway, fun there names _ => ?_⟩
    · exact fun segs hsegs => hroutes segs ((List.mem_inits _ _).mp (List.mem_reverse.mp hsegs))
    · rw [hfind, if_neg (by simpa using hsteps), Text.split_join hsteps (hroutes steps List.prefix_rfl).notMem]

variable (hsees : SeesRoutes there root.toList)

include hsees

/-- **What a search finds**: nothing, if no directory of the way holds a name, or else the entries of the first directory
that does. -/
theorem findParents_cases (names : List String) :
    findParents there root path names = .ok [] ∧
        (∀ dir ∈ Path.way root.toList (Path.directory path.toList), namesIn there dir names = []) ∨
      ∃ before dir after, Path.way root.toList (Path.directory path.toList) = before ++ Path.normalize dir :: after ∧
        Path.isAbsolute dir = true ∧ Alike there dir (Path.normalize dir) ∧
        (∀ d ∈ before, namesIn there d names = []) ∧ namesIn there dir names ≠ [] ∧
        findParents there root path names = .ok (namesIn there dir names) := by
  obtain ⟨routes, hroutes, hway, hfind⟩ := findParents_firstIn hroot hpath
  have halike : ∀ dir ∈ routes.map (Path.appendAll root.toList), Alike there dir (Path.normalize dir) :=
    List.forall_mem_map.mpr fun segs hsegs => hsees segs (hroutes segs hsegs)
  have habsolute : ∀ dir ∈ routes.map (Path.appendAll root.toList), Path.isAbsolute dir = true :=
    List.forall_mem_map.mpr fun segs hsegs => (Path.rootOf_appendAll (hroutes segs hsegs).notMem hroot).1
  rw [hfind there names hsees, ← hway]
  generalize routes.map (Path.appendAll root.toList) = dirs at *
  have hempty : ∀ dir ∈ dirs, namesIn there dir names = [] → namesIn there (Path.normalize dir) names = [] :=
    fun dir hdir => (halike dir hdir).namesIn_eq_nil.mp
  rcases firstIn_cases there names dirs with ⟨hnone, hall⟩ | ⟨before, dir, after, rfl, hbefore, hfound, hfirst⟩
  · refine .inl ⟨congrArg Except.ok hnone, List.forall_mem_map.mpr fun dir hdir => ?_⟩
    exact hempty dir hdir (hall dir hdir)
  · have hmem : dir ∈ before ++ dir :: after := List.mem_append_right _ List.mem_cons_self
    refine .inr ⟨before.map Path.normalize, dir, after.map Path.normalize, ?_, habsolute dir hmem, halike dir hmem, ?_,
      hfound, congrArg Except.ok hfirst⟩
    · rw [List.map_append, List.map_cons]
    · exact List.forall_mem_map.mpr fun d hd => hempty d (List.mem_append_left _ hd) (hbefore d hd)

theorem findParents_eq_nil_iff (names : List String) :
    findParents there root path names = .ok [] ↔
      ∀ dir ∈ Path.way root.toList (Path.directory path.toList), namesIn there dir names = [] := by
  rcases findParents_cases hroot hpath hsees names with
    ⟨hnone, hall⟩ | ⟨before, dir, after, hway, -, halike, -, hholds, hfound⟩
  · exact iff_of_true hnone hall
  · have hmem : Path.normalize dir ∈ Path.way root.toList (Path.directory path.toList) := by
      rw [hway]
      exact List.mem_append_right _ List.mem_cons_self
    rw [hfound, Except.ok.injEq]
    exact iff_of_false hholds fun hall => hholds (halike.namesIn_eq_nil.mpr (hall _ hmem))

/-- The first directory of the way that holds a name is the one that counts. -/
theorem findParents_of_first {before after : List (List Char)} {first : List Char}
    (hway : Path.way root.toList (Path.directory path.toList) = before ++ first :: after)
    (hbefore : ∀ d ∈ before, namesIn there d names = []) (hfirst : namesIn there first names ≠ []) :
    ∃ found, findParents there root path names = .ok found ∧
      found.map Path.normalized = (namesIn there first names).map Path.normalized := by
  have hfind : ∀ before first after, Path.way root.toList (Path.directory path.toList) = before ++ first :: after →
      (∀ d ∈ before, namesIn there d names = []) → namesIn there first names ≠ [] →
      (Path.way root.toList (Path.directory path.toList)).find? (fun d => !(namesIn there d names).isEmpty) = some first :=
    fun before first after hway hbefore hfirst =>
      List.find?_eq_some_iff_append.mpr ⟨by simpa using hfirst, before, after, hway, fun d hd => by simp [hbefore d hd]⟩
  rcases findParents_cases hroot hpath hsees names with
    ⟨-, hall⟩ | ⟨front, dir, rest, hsplit, hdir, halike, hfront, hholds, hfound⟩
  · refine absurd (hall first ?_) hfirst
    rw [hway]
    exact List.mem_append_right _ List.mem_cons_self
  · have hnormalize := mt halike.namesIn_eq_nil.mpr hholds
    have hsame : Path.normalize dir = first :=
      Option.some.inj ((hfind _ _ _ hsplit hfront hnormalize).symm.trans (hfind _ _ _ hway hbefore hfirst))
    exact ⟨_, hfound, by rw [← hsame, normalized_namesIn_normalize hdir halike]⟩

end

end Search

namespace FileTree

variable {t : FileTree} {dir other : List Char}

/-- By their text, all spellings of a directory look alike. -/
theorem alike_has (hdir : Path.isAbsolute dir = true) (hother : Path.isAbsolute other = true)
    (hplace : Path.place dir = Path.place other) : Search.Alike t.has dir other := by
  intro name
  refine has_congr_of_isAbsolute (Path.isAbsolute_append hdir name) (Path.isAbsolute_append hother name) ?_
  cases hname : Path.isAbsolute name with
  | true => rw [Path.append_of_isAbsolute hname, Path.append_of_isAbsolute hname]
  | false => rw [Path.place_append dir hname, Path.place_append other hname, hplace]

theorem alike_has_normalize (t : FileTree) (hdir : Path.isAbsolute dir = true) :
    Search.Alike t.has dir (Path.normalize dir) :=
  alike_has hdir (Path.isAbsolute_normalize hdir) (Path.place_normalize hdir).symm

theorem seesRoutes_has (t : FileTree) {root : List Char} (hroot : Path.isAbsolute root = true) :
    Search.SeesRoutes t.has root :=
  fun _ hsegs => t.alike_has_normalize (Path.rootOf_appendAll hsegs.notMem hroot).1

/-- **On a disk, routes from a directory that exists look as their text says.** -/
theorem seesRoutes_onDisk {root : String} (hroot : Path.isAbsolute root.toList = true)
    (hstands : t.isDirectoryOnDisk root = true) : Search.SeesRoutes t.onDisk root.toList := by
  intro segs hsegs
  obtain ⟨hstanding, hpasses⟩ := (isDirectoryOnDisk_iff hroot).mp hstands
  obtain ⟨htop, hgrounded⟩ := grounded_placeOf hpasses
  rw [placeOf_of_isAbsolute hroot] at hgrounded
  have habsolute := (Path.rootOf_appendAll hsegs.notMem hroot).1
  refine onDisk_append_congr habsolute (Path.isAbsolute_normalize habsolute) (Path.place_normalize habsolute).symm fun _ => ?_
  -- Both can be followed exactly if all directories above their common place exist.
  have hroute : t.passesFrom (Path.place root.toList) segs = true ↔
      t.Grounded (segs.foldl (Path.addSegment true) (Path.place root.toList)) := by
    rcases hsegs with rfl | ⟨n, names, hnames, rfl⟩
    · exact iff_of_true ((t.passesFrom_singleton _ _).trans hstanding) hgrounded
    · obtain ⟨hdots, hup⟩ := passesFrom_dots hgrounded hstanding Path.isName_of_mem_place n
      rw [passesFrom_append, hdots, Bool.true_and, passesFrom_names hup hnames, List.foldl_append,
        Path.foldl_names hnames]
  have hshort : t.passes (Path.normalize (Path.appendAll root.toList segs)) = true ↔
      t.Grounded (segs.foldl (Path.addSegment true) (Path.place root.toList)) := by
    rw [Path.normalize_of_isAbsolute habsolute, passes_spell habsolute Path.isName_of_mem_place,
      Path.place_appendAll hsegs.notMem]
    exact and_iff_right htop
  rw [passes_appendAll t hsegs.notMem, hpasses, Bool.true_and, placeOf_of_isAbsolute hroot, Bool.eq_iff_iff, hroute, hshort]

/-- **On a disk, nothing is reached from what is no directory**, on whatever route. -/
theorem onDisk_append_of_missing {root : String} (hroot : Path.isAbsolute root.toList = true)
    (hmissing : t.isDirectoryOnDisk root = false) {segs : List (List Char)} (hsegs : ∀ s ∈ segs, '/' ∉ s)
    {name : List Char} (hname : Path.isAbsolute name = false) :
    t.onDisk (String.ofList (Path.append (Path.appendAll root.toList segs) name)) = false := by
  rw [onDisk_ofList, passes_append t _ hname, passes_appendAll t hsegs, Bool.and_assoc,
    placeOf_of_isAbsolute (Path.rootOf_appendAll hsegs hroot).1, Path.place_appendAll hsegs, placeOf_of_isAbsolute hroot,
    ← passesFrom_append]
  rw [← Bool.not_eq_true, Bool.and_eq_true_iff, Bool.and_eq_true_iff]
  rintro ⟨-, hpasses, hrest⟩
  have hstanding := standing_of_passesFrom hrest (List.append_ne_nil_of_right_ne_nil _ (Text.split_ne_nil _ _))
  rw [(isDirectoryOnDisk_iff hroot).mpr ⟨hstanding, hpasses⟩] at hmissing
  cases hmissing

/-- On a disk, a search from what is no directory finds nothing. -/
theorem findParents_of_missing {root path : String} (hroot : Path.isAbsolute root.toList = true)
    (hpath : Path.isAbsolute path.toList = true) (hmissing : t.isDirectoryOnDisk root = false) {names : List String}
    (hnames : ∀ n ∈ names, Path.isAbsolute n.toList = false) : Search.findParents t.onDisk root path names = .ok [] := by
  have hrelative := Path.relative_of_isAbsolute ((Path.isAbsolute_directory path.toList).trans hpath) hroot
  rw [Search.findParents_of_relative hroot hpath hrelative]
  rcases Search.firstIn_cases t.onDisk names _ with ⟨hnone, -⟩ | ⟨before, dir, after, hdirs, -, hholds, -⟩
  · exact congrArg Except.ok hnone
  · refine absurd ?_ hholds
    have hmem : dir ∈ before ++ dir :: after := List.mem_append_right _ List.mem_cons_self
    rw [← hdirs] at hmem
    obtain ⟨segs, hsegs, rfl⟩ := List.mem_map.mp hmem
    have hwhole : ∀ s ∈ segs, '/' ∉ s := fun s hs =>
      Text.notMem_of_mem_split (((List.mem_inits _ _).mp (List.mem_reverse.mp hsegs)).subset hs)
    refine List.filter_eq_nil_iff.mpr (List.forall_mem_map.mpr fun n hn => ?_)
    rw [onDisk_append_of_missing hroot hmissing hwhole (hnames n hn)]
    exact Bool.false_ne_true

end FileTree

/-! ## Below the root -/

namespace Path

variable {root dir other : List Char}

/-- Below the root the way only goes up. -/
theorem way_of_contains (h : Contains root dir) :
    ∃ up, place dir = place root ++ up ∧
      (∀ x, x <+: up → place (spell root (place root ++ x)) = place root ++ x) ∧
      way root dir = (up.inits.map fun x => spell root (place root ++ x)).reverse := by
  obtain ⟨hroot, -, up, hup⟩ := h
  refine ⟨up, hup.symm, fun x hx => place_spell hroot fun s hs => ?_, ?_⟩
  · refine isName_of_mem_place (p := dir) s ?_
    rw [← hup]
    exact ((List.prefix_append_right_inj _).mpr hx).subset hs
  · have hplaces := placesBetween_append (place root) (show sharedLength [] up = 0 from rfl)
    rw [List.append_nil] at hplaces
    rw [way, ← hup, hplaces, inits_eq_cons up]
    simp [Function.comp_def]

/-- **Below the root, the way has all directories between the two.** -/
theorem mem_way_iff (h : Contains root dir) :
    other ∈ way root dir ↔ Contains root other ∧ Contains other dir ∧ other = spell root (place other) := by
  obtain ⟨up, hup, hspell, hway⟩ := way_of_contains h
  simp only [hway, List.mem_reverse, List.mem_map, List.mem_inits]
  constructor
  · rintro ⟨x, hx, rfl⟩
    have habsolute := isAbsolute_spell h.1 (place root ++ x)
    have hplace := hspell x hx
    refine ⟨⟨h.1, habsolute, ?_⟩, ⟨habsolute, h.2.1, ?_⟩, by rw [hplace]⟩
    · rw [hplace]
      exact List.prefix_append _ _
    · rw [hplace, hup]
      exact (List.prefix_append_right_inj _).mpr hx
  · rintro ⟨⟨-, -, x, hx⟩, ⟨-, -, habove⟩, hspelled⟩
    rw [← hx, hup, List.prefix_append_right_inj] at habove
    exact ⟨x, habove, by rw [hx, ← hspelled]⟩

theorem pairwise_inits (l : List (List Char)) : l.inits.Pairwise (· <+: ·) := by
  induction l with
  | nil => exact List.pairwise_singleton _ _
  | cons a rest ih =>
    rw [List.inits_cons, List.pairwise_cons, List.pairwise_map]
    exact ⟨fun x _ => List.nil_prefix, ih.imp fun h => List.cons_prefix_cons.mpr ⟨rfl, h⟩⟩

/-- Below the root, each directory of the way contains those before it. -/
theorem pairwise_way (h : Contains root dir) : (way root dir).Pairwise fun d e => Contains e d := by
  obtain ⟨up, -, hspell, hway⟩ := way_of_contains h
  rw [hway, List.pairwise_reverse, List.pairwise_map]
  refine (pairwise_inits up).imp_of_mem fun {x y} hx hy hxy => ?_
  rw [List.mem_inits] at hx hy
  refine ⟨isAbsolute_spell h.1 _, isAbsolute_spell h.1 _, ?_⟩
  rw [hspell x hx, hspell y hy]
  exact (List.prefix_append_right_inj _).mpr hxy

end Path

namespace FileTree

variable {t : FileTree} {names : List String} {root dir : List Char}

/-- **The nearest directory** between `root` and `dir` that holds one of the names: every other one that does contains
it. -/
structure Nearest (t : FileTree) (root dir : List Char) (names : List String) (nearest : List Char) : Prop where
  below : Path.Contains root nearest
  above : Path.Contains nearest dir
  holds : t.namesIn nearest names ≠ []
  deepest : ∀ {other}, Path.Contains root other → Path.Contains other dir → t.namesIn other names ≠ [] →
    Path.Contains other nearest

/-- A directory between the two is on the way, in another spelling, and holds there what it holds. -/
theorem exists_mem_way (t : FileTree) (names : List String) (h : Path.Contains root dir) {other : List Char}
    (hbelow : Path.Contains root other) (habove : Path.Contains other dir) :
    ∃ d ∈ Path.way root dir, Path.place d = Path.place other ∧
      (t.namesIn d names = [] ↔ t.namesIn other names = []) := by
  have hplace : Path.place (Path.spell root (Path.place other)) = Path.place other :=
    Path.place_spell h.1 Path.isName_of_mem_place
  have habsolute := Path.isAbsolute_spell h.1 (Path.place other)
  refine ⟨Path.spell root (Path.place other), ?_, hplace, (alike_has habsolute habove.1 hplace).namesIn_eq_nil⟩
  rw [Path.mem_way_iff h, Path.Contains, Path.Contains, hplace]
  exact ⟨⟨h.1, habsolute, hbelow.2.2⟩, ⟨habsolute, habove.2.1, habove.2.2⟩, rfl⟩

/-- **The first directory of the way that holds a name is the nearest one.** -/
theorem nearest_of_way (h : Path.Contains root dir) {before after : List (List Char)} {found : List Char}
    (hfound : Path.isAbsolute found = true) (hway : Path.way root dir = before ++ Path.normalize found :: after)
    (hbefore : ∀ d ∈ before, t.namesIn d names = []) (hholds : t.namesIn found names ≠ []) :
    t.Nearest root dir names (Path.normalize found) := by
  replace hholds := mt (t.alike_has_normalize hfound).namesIn_eq_nil.mpr hholds
  generalize Path.normalize found = nearest at *
  have hmem : nearest ∈ Path.way root dir := by
    rw [hway]
    exact List.mem_append_right _ List.mem_cons_self
  obtain ⟨hbelow, habove, -⟩ := (Path.mem_way_iff h).mp hmem
  refine ⟨hbelow, habove, hholds, fun {other} hother hother' hsome => ?_⟩
  obtain ⟨d, hd, hplace, hsame⟩ := exists_mem_way t names h hother hother'
  have hcontains : Path.Contains d nearest := by
    rw [hway] at hd
    rcases List.mem_append.mp hd with hd | hd
    · exact absurd (hsame.mp (hbefore d hd)) hsome
    rcases List.mem_cons.mp hd with rfl | hd
    · exact ⟨hbelow.2.1, hbelow.2.1, List.prefix_rfl⟩
    · have hordered := Path.pairwise_way h
      rw [hway] at hordered
      exact List.rel_of_pairwise_cons (List.pairwise_append.mp hordered).2.1 hd
  exact ⟨hother.2.1, hcontains.2.1, hplace ▸ hcontains.2.2⟩

end FileTree

namespace Workspace

/-- The files that make a directory a project. -/
def projectFiles : List String := ["setup.py", "pyproject.toml"]

theorem eraseDups_eq_singleton {l : List String} {a : String} (hne : l ≠ []) (h : ∀ x ∈ l, x = a) : l.eraseDups = [a] := by
  obtain ⟨first, rest, rfl⟩ := List.exists_cons_of_ne_nil hne
  have hfirst : first = a := h first List.mem_cons_self
  have hrest : rest.filter (fun b => !b == first) = [] :=
    List.filter_eq_nil_iff.mpr fun x hx => by simp [h x (List.mem_cons_of_mem first hx), hfirst]
  rw [List.eraseDups_cons, hrest, hfirst]
  rfl

theorem directoryOf_of_mem_namesIn {there : String → Bool} {names : List String} {dir : List Char} {file : String}
    (hdir : Path.isAbsolute dir = true) (hnames : ∀ n ∈ names, '/' ∉ n.toList)
    (h : file ∈ Search.namesIn there dir names) : Path.directoryOf file = String.ofList (Path.settle dir) := by
  obtain ⟨n, hn, rfl⟩ := List.mem_map.mp (List.mem_filter.mp h).1
  rw [Path.directoryOf, String.toList_ofList, Path.directory_append (Path.ne_nil_of_isAbsolute hdir) (hnames n hn)]

theorem sourceRootsWhere_of_found {w : Workspace} {there : String → Bool} {path : String} {found : List String}
    (h : Search.findParents there w.rootPath path projectFiles = .ok found) :
    w.sourceRootsWhere there path = .ok (if (found.map Path.directoryOf).eraseDups.isEmpty then [w.rootPath]
      else (found.map Path.directoryOf).eraseDups) := by
  rw [projectFiles] at h
  rw [sourceRootsWhere, h]
  rfl

/-- **There is one source root**: the first directory of the way that is a project, or else the root. -/
theorem sourceRoots_cases {w : Workspace} {path : String} {there : String → Bool}
    (hroot : Path.isAbsolute w.rootPath.toList = true) (hpath : Path.isAbsolute path.toList = true)
    (hsees : Search.SeesRoutes there w.rootPath.toList) :
    w.sourceRootsWhere there path = .ok [w.rootPath] ∧
        (∀ dir ∈ Path.way w.rootPath.toList (Path.directory path.toList), Search.namesIn there dir projectFiles = []) ∨
      ∃ before dir after, Path.way w.rootPath.toList (Path.directory path.toList) = before ++ Path.normalize dir :: after ∧
        Path.isAbsolute dir = true ∧ Search.Alike there dir (Path.normalize dir) ∧
        (∀ d ∈ before, Search.namesIn there d projectFiles = []) ∧ Search.namesIn there dir projectFiles ≠ [] ∧
        w.sourceRootsWhere there path = .ok [String.ofList (Path.settle dir)] := by
  rcases Search.findParents_cases hroot hpath hsees projectFiles with
    ⟨hnone, hall⟩ | ⟨before, dir, after, hway, hdir, halike, hbefore, hholds, hfound⟩
  · exact .inl ⟨sourceRootsWhere_of_found hnone, hall⟩
  · have hone : ((Search.namesIn there dir projectFiles).map Path.directoryOf).eraseDups =
        [String.ofList (Path.settle dir)] := by
      refine eraseDups_eq_singleton (by simpa using hholds) (List.forall_mem_map.mpr fun file hfile => ?_)
      exact directoryOf_of_mem_namesIn hdir (by decide) hfile
    refine .inr ⟨before, dir, after, hway, hdir, halike, hbefore, hholds, ?_⟩
    rw [sourceRootsWhere_of_found hfound, hone]
    rfl

end Workspace

namespace FileTree

variable {t : FileTree} {names : List String} {root dir : List Char}

/-- No directory between `root` and `dir` holds one of the names. -/
def NoneBetween (t : FileTree) (root dir : List Char) (names : List String) : Prop :=
  ∀ other, Path.Contains root other → Path.Contains other dir → t.namesIn other names = []

theorem noneBetween_of_way (h : Path.Contains root dir) (hall : ∀ d ∈ Path.way root dir, t.namesIn d names = []) :
    t.NoneBetween root dir names := by
  intro other hbelow habove
  obtain ⟨d, hd, -, hsame⟩ := exists_mem_way t names h hbelow habove
  exact hsame.mp (hall d hd)

theorem normalized_settle (hdir : Path.isAbsolute dir = true) :
    Path.normalized (String.ofList (Path.settle dir)) = String.ofList (Path.normalize dir) := by
  rw [Path.normalized, String.toList_ofList, Path.normalize_congr hdir (Path.rootOf_settle dir) (Path.place_settle dir)]

/-- **The nearest directory wins.** A search for a document in the root or below it always ends well. It finds the entries
of the nearest directory between the two that holds one of the names, in the order of the names, or nothing if there is no
such directory. So a document has one source root: the nearest project around it, or else the root of its workspace. -/
theorem nearest_directory_wins {root path : String}
    (h : Path.Contains root.toList (Path.directory path.toList)) (t : FileTree) (names : List String) :
    (∃ found, t.findParents root path names = .ok found ∧
      (found = [] ∧ t.NoneBetween root.toList (Path.directory path.toList) names ∨
        ∃ dir, Path.normalize dir = dir ∧ t.Nearest root.toList (Path.directory path.toList) names dir ∧
          found.map Path.normalized = (t.namesIn dir names).map Path.normalized)) ∧
    ∀ w : Workspace, w.rootPath = root → ∃ source, w.sourceRoots t path = .ok [source] ∧
      (source = root ∧ t.NoneBetween root.toList (Path.directory path.toList) Workspace.projectFiles ∨
        ∃ dir, Path.normalize dir = dir ∧
          t.Nearest root.toList (Path.directory path.toList) Workspace.projectFiles dir ∧
          Path.normalized source = String.ofList dir) := by
  have hpath : Path.isAbsolute path.toList = true := by
    rw [← Path.isAbsolute_directory]
    exact h.2.1
  constructor
  · rcases Search.findParents_cases h.1 hpath (t.seesRoutes_has h.1) names with
      ⟨hnone, hall⟩ | ⟨before, dir, after, hway, hdir, halike, hbefore, hholds, hfound⟩
    · exact ⟨[], hnone, .inl ⟨rfl, noneBetween_of_way h hall⟩⟩
    · exact ⟨_, hfound, .inr ⟨_, Path.normalize_normalize hdir, nearest_of_way h hdir hway hbefore hholds,
        Search.normalized_namesIn_normalize hdir halike⟩⟩
  · rintro w rfl
    rcases Workspace.sourceRoots_cases h.1 hpath (t.seesRoutes_has h.1) with
      ⟨hnone, hall⟩ | ⟨before, dir, after, hway, hdir, -, hbefore, hholds, hfound⟩
    · exact ⟨_, hnone, .inl ⟨rfl, noneBetween_of_way h hall⟩⟩
    · exact ⟨_, hfound, .inr ⟨_, Path.normalize_normalize hdir, nearest_of_way h hdir hway hbefore hholds,
        normalized_settle hdir⟩⟩

/-- A project in a project, and a library beside both. -/
def nestedProjects : FileTree where
  files := [("/ws/setup.py", .text ""), ("/ws/a/pyproject.toml", .text ""), ("/ws/tox.ini", .text ""),
    ("/usr/setup.py", .text "")]

/-- The inner project is the source root, and the outer one has the settings file. -/
theorem nearest_directory_wins_nested :
    (∃ source, { id := 0, rootUri := "", rootPath := "/ws", scheme := "file" : Workspace }.sourceRoots nestedProjects
        "/ws/a//b/../c/m.py" = .ok [source] ∧
      ∃ dir, nestedProjects.Nearest "/ws".toList "/ws/a//b/../c".toList Workspace.projectFiles dir ∧
        Path.normalized source = String.ofList dir) ∧
    ∃ found, nestedProjects.findParents "/ws" "/ws/a//b/../c/m.py" ["setup.cfg", "tox.ini"] = .ok found ∧
      ∃ dir, nestedProjects.Nearest "/ws".toList "/ws/a//b/../c".toList ["setup.cfg", "tox.ini"] dir ∧
        found.map Path.normalized = (nestedProjects.namesIn dir ["setup.cfg", "tox.ini"]).map Path.normalized := by
  have hdir : Path.directory "/ws/a//b/../c/m.py".toList = "/ws/a//b/../c".toList := by decide +kernel
  have hbelow : Path.Contains "/ws".toList (Path.directory "/ws/a//b/../c/m.py".toList) := by decide +kernel
  have hsome : ∀ names, nestedProjects.namesIn "/ws".toList names ≠ [] →
      ¬ nestedProjects.NoneBetween "/ws".toList (Path.directory "/ws/a//b/../c/m.py".toList) names :=
    fun names hholds hnone => hholds (hnone _ (by decide +kernel) hbelow)
  obtain ⟨⟨found, hfound, hcases⟩, hsource⟩ := nearest_directory_wins hbelow nestedProjects ["setup.cfg", "tox.ini"]
  obtain ⟨source, hroots, hprojects⟩ := hsource { id := 0, rootUri := "", rootPath := "/ws", scheme := "file" } rfl
  rw [hdir] at hcases hprojects hsome
  refine ⟨⟨source, hroots, ?_⟩, found, hfound, ?_⟩
  · obtain ⟨dir, -, hdir⟩ := hprojects.resolve_left fun h => hsome _ (by decide +kernel) h.2
    exact ⟨dir, hdir⟩
  · obtain ⟨dir, -, hdir⟩ := hcases.resolve_left fun h => hsome _ (by decide +kernel) h.2
    exact ⟨dir, hdir⟩

end FileTree

/-! ## Beside the root -/

namespace Path

variable {here there : List (List Char)} {root dir : List Char}

theorem prefix_of_mem_placesBetween {names : List (List Char)} (h : names ∈ placesBetween here there) :
    names <+: here ∨ names <+: there := by
  rcases List.mem_append.mp h with h | h
  · exact .inr ((List.mem_inits names there).mp (List.mem_of_mem_drop (List.mem_reverse.mp h)))
  · exact .inl ((List.mem_inits names here).mp (List.mem_of_mem_drop h))

/-- The way starts at the directory. -/
theorem head?_placesBetween (here there : List (List Char)) : (placesBetween here there).head? = some there := by
  obtain ⟨common, down, up, rfl, rfl, hshared⟩ := exists_shared here there
  rw [placesBetween_append common hshared]
  rcases List.eq_nil_or_concat up with rfl | ⟨front, last, rfl⟩
  · rw [inits_eq_cons down]
    simp
  · rw [List.concat_eq_append, inits_concat, inits_eq_cons front]
    simp

/-- **Beside the root, the way ends at the root and is outside of it before.** -/
theorem placesBetween_beside (h : ¬ here <+: there) :
    (placesBetween here there).getLast? = some here ∧ ∀ names ∈ (placesBetween here there).dropLast, ¬ here <+: names := by
  obtain ⟨common, down, up, rfl, rfl, hshared⟩ := exists_shared here there
  have hapart : ¬ down <+: up := fun hinit => h ((List.prefix_append_right_inj common).mpr hinit)
  rcases List.eq_nil_or_concat down with rfl | ⟨front, last, rfl⟩
  · exact absurd List.nil_prefix hapart
  rw [List.concat_eq_append] at *
  rw [placesBetween_append common hshared, inits_concat, List.map_append, ← List.append_assoc]
  refine ⟨by simp, ?_⟩
  rw [List.map_singleton, List.dropLast_concat]
  intro names hnames hinside
  rcases List.mem_append.mp hnames with hnames | hnames
  · obtain ⟨x, hx, rfl⟩ := List.mem_map.mp (List.mem_reverse.mp hnames)
    have hup : x <+: up := (List.mem_inits x up).mp (List.mem_of_mem_tail hx)
    exact hapart (((List.prefix_append_right_inj common).mp hinside).trans hup)
  · obtain ⟨x, hx, rfl⟩ := List.mem_map.mp hnames
    have hfront := ((List.mem_inits x front).mp hx).length_le
    have hlonger := ((List.prefix_append_right_inj common).mp hinside).length_le
    rw [List.length_append, List.length_singleton] at hlonger
    omega

theorem place_of_mem_placesBetween (hroot : isAbsolute root = true) {names : List (List Char)}
    (h : names ∈ placesBetween (place root) (place dir)) : place (spell root names) = names := by
  refine place_spell hroot fun s hs => ?_
  rcases prefix_of_mem_placesBetween h with h | h
  · exact isName_of_mem_place s (h.subset hs)
  · exact isName_of_mem_place s (h.subset hs)

theorem way_beside (hroot : isAbsolute root = true) (h : ¬ place root <+: place dir) :
    (way root dir).head?.map place = some (place dir) ∧ (way root dir).getLast? = some (normalize root) ∧
      ∀ d ∈ (way root dir).dropLast, ¬ Contains root d := by
  obtain ⟨hlast, houtside⟩ := placesBetween_beside h
  refine ⟨?_, ?_, ?_⟩
  · have hhead := head?_placesBetween (place root) (place dir)
    have hplace := place_of_mem_placesBetween hroot (List.mem_of_mem_head? hhead)
    rw [way, List.head?_map, hhead, Option.map_some, Option.map_some, hplace]
  · rw [way, List.getLast?_map, hlast, normalize_of_isAbsolute hroot]
    rfl
  · rw [way, ← List.map_dropLast]
    refine List.forall_mem_map.mpr fun names hnames hcontains => houtside names hnames ?_
    rw [← place_of_mem_placesBetween hroot (List.dropLast_subset _ hnames)]
    exact hcontains.2.2

end Path

namespace Workspace

/-- **Beside the root, the source root is outside** exactly if there is a project on the way before the root. -/
theorem sourceRoots_beside {w : Workspace} {path : String} {there : String → Bool}
    (hroot : Path.isAbsolute w.rootPath.toList = true) (hpath : Path.isAbsolute path.toList = true)
    (houtside : ¬ Path.place w.rootPath.toList <+: Path.place (Path.directory path.toList))
    (hsees : Search.SeesRoutes there w.rootPath.toList) :
    ∃ source, w.sourceRootsWhere there path = .ok [source] ∧
      (Path.Contains w.rootPath.toList source.toList ↔
        ∀ dir ∈ (Path.way w.rootPath.toList (Path.directory path.toList)).dropLast,
          Search.namesIn there dir projectFiles = []) := by
  obtain ⟨-, hlast, hdropLast⟩ := Path.way_beside hroot houtside
  rcases sourceRoots_cases hroot hpath hsees with
    ⟨hnone, hall⟩ | ⟨before, dir, after, hway, hdir, halike, hbefore, hholds, hfound⟩
  · refine ⟨_, hnone, iff_of_true ⟨hroot, hroot, List.prefix_rfl⟩ fun dir hdir => hall dir (List.dropLast_subset _ hdir)⟩
  · refine ⟨_, hfound, ?_⟩
    have hinside : Path.Contains w.rootPath.toList (String.ofList (Path.settle dir)).toList ↔
        Path.Contains w.rootPath.toList (Path.normalize dir) := by
      simp only [Path.Contains, String.toList_ofList, Path.isAbsolute_settle, Path.place_settle,
        Path.isAbsolute_normalize hdir, Path.place_normalize hdir, hdir]
    rw [hinside]
    generalize Path.way w.rootPath.toList (Path.directory path.toList) = way at *
    -- The project is the root itself exactly if it is the last directory of the way.
    by_cases hafter : after = []
    · subst hafter
      have hend : Path.normalize dir = Path.normalize w.rootPath.toList := by
        rw [hway] at hlast
        simpa using hlast
      refine iff_of_true ⟨hroot, Path.isAbsolute_normalize hdir, ?_⟩ ?_
      · rw [hend, Path.place_normalize hroot]
      · rw [hway, List.dropLast_concat]
        exact hbefore
    · have hmem : Path.normalize dir ∈ way.dropLast := by
        rw [hway, List.dropLast_append_of_ne_nil (List.cons_ne_nil _ _), List.dropLast_cons_of_ne_nil hafter]
        exact List.mem_append_right _ List.mem_cons_self
      exact iff_of_false (hdropLast _ hmem) fun hall => hholds (halike.namesIn_eq_nil.mpr (hall _ hmem))

end Workspace

namespace FileTree

/-- **Beside the root, a search finds what the directories of the way hold.** A document that is not below the root should
have no settings files and no projects around it. The way starts at the document's directory and ends at the root, and all
of it before the root is outside.

* Where paths are looked up by their text, and on a disk that has the root as a directory, a search for the document ends
  without a file exactly if no directory of the way holds one of the names; otherwise it finds the entries of the first one
  that does. So the source root of the document is in the root exactly if there is no project on the way outside.
* On a disk that does not have the root, nothing is found, and the root is the source root. -/
theorem search_beside_root_iff {root path : String} (hroot : Path.isAbsolute root.toList = true)
    (hpath : Path.isAbsolute path.toList = true)
    (hbeside : ¬ Path.Contains root.toList (Path.directory path.toList)) (t : FileTree) (names : List String) :
    let way := Path.way root.toList (Path.directory path.toList)
    (way.head?.map Path.place = some (Path.place (Path.directory path.toList)) ∧
      way.getLast? = some (Path.normalize root.toList) ∧ ∀ dir ∈ way.dropLast, ¬ Path.Contains root.toList dir) ∧
    (∀ there, there = t.has ∨ there = t.onDisk ∧ t.isDirectoryOnDisk root = true →
      (Search.findParents there root path names = .ok [] ↔ ∀ dir ∈ way, Search.namesIn there dir names = []) ∧
      (∀ before dir after, way = before ++ dir :: after → (∀ d ∈ before, Search.namesIn there d names = []) →
        Search.namesIn there dir names ≠ [] → ∃ found, Search.findParents there root path names = .ok found ∧
          found.map Path.normalized = (Search.namesIn there dir names).map Path.normalized) ∧
      ∀ w : Workspace, w.rootPath = root → ∃ source, w.sourceRootsWhere there path = .ok [source] ∧
        (Path.Contains root.toList source.toList ↔
          ∀ dir ∈ way.dropLast, Search.namesIn there dir Workspace.projectFiles = [])) ∧
    (t.isDirectoryOnDisk root = false →
      ((∀ n ∈ names, Path.isAbsolute n.toList = false) → Search.findParents t.onDisk root path names = .ok []) ∧
      ∀ w : Workspace, w.rootPath = root → w.sourceRootsWhere t.onDisk path = .ok [root]) := by
  intro way
  have houtside : ¬ Path.place root.toList <+: Path.place (Path.directory path.toList) := fun hinit =>
    hbeside ⟨hroot, (Path.isAbsolute_directory path.toList).trans hpath, hinit⟩
  refine ⟨Path.way_beside hroot houtside, fun there hlookup => ?_, fun hmissing => ⟨?_, ?_⟩⟩
  · have hsees : Search.SeesRoutes there root.toList := by
      rcases hlookup with rfl | ⟨rfl, hstands⟩
      · exact t.seesRoutes_has hroot
      · exact seesRoutes_onDisk hroot hstands
    refine ⟨Search.findParents_eq_nil_iff hroot hpath hsees names,
      fun before dir after hway hbefore hholds => Search.findParents_of_first hroot hpath hsees hway hbefore hholds, ?_⟩
    rintro w rfl
    exact Workspace.sourceRoots_beside hroot hpath houtside hsees
  · exact findParents_of_missing hroot hpath hmissing
  · rintro w rfl
    exact Workspace.sourceRootsWhere_of_found (findParents_of_missing hroot hpath hmissing (by decide))

/-- A document of a library, which has a project around it, next to a root that is there and to one that is not. -/
theorem search_beside_root_iff_library :
    (∃ found, Search.findParents nestedProjects.onDisk "/ws/a" "/usr/lib/os.py" ["setup.py"] = .ok found ∧
      found.map Path.normalized = ["/usr/setup.py"]) ∧
    (∃ source, { id := 0, rootUri := "", rootPath := "/ws/a", scheme := "file" : Workspace }.sourceRootsWhere
        nestedProjects.onDisk "/usr/lib/os.py" = .ok [source] ∧ ¬ Path.Contains "/ws/a".toList source.toList) ∧
    Search.findParents nestedProjects.onDisk "/gone" "/usr/lib/os.py" ["setup.py"] = .ok [] := by
  have hroot : Path.isAbsolute "/ws/a".toList = true := by decide +kernel
  have hpath : Path.isAbsolute "/usr/lib/os.py".toList = true := by decide +kernel
  have hbeside : ¬ Path.Contains "/ws/a".toList (Path.directory "/usr/lib/os.py".toList) := by decide +kernel
  obtain ⟨-, hstands, -⟩ := search_beside_root_iff hroot hpath hbeside nestedProjects ["setup.py"]
  obtain ⟨-, hfirst, hsource⟩ := hstands nestedProjects.onDisk (.inr ⟨rfl, by decide +kernel⟩)
  have hgoneRoot : Path.isAbsolute "/gone".toList = true := by decide +kernel
  obtain ⟨-, -, hgone⟩ := search_beside_root_iff hgoneRoot hpath (by decide +kernel) nestedProjects ["setup.py"]
  have hway : Path.way "/ws/a".toList (Path.directory "/usr/lib/os.py".toList) =
      ["/usr/lib".toList] ++ "/usr".toList :: ["/".toList, "/ws".toList, "/ws/a".toList] := by decide +kernel
  obtain ⟨found, hfound, hshort⟩ := hfirst _ _ _ hway (by decide +kernel) (by decide +kernel)
  obtain ⟨source, hroots, hinside⟩ :=
    hsource { id := 0, rootUri := "", rootPath := "/ws/a", scheme := "file" } rfl
  refine ⟨⟨found, hfound, ?_⟩, ⟨source, hroots, ?_⟩, (hgone (by decide +kernel)).1 (by decide +kernel)⟩
  · rw [hshort]
    decide +kernel
  · rw [hinside, hway]
    decide +kernel

end FileTree

end EditorService
