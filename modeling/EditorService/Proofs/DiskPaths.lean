import EditorService.Proofs.PathPlaces

/-!
# What a disk makes of a path

A disk follows a path segment by segment, each one in a directory that exists (`FileTree.passes`). Where it can, it comes to
the place of the path, and all directories above this place exist (`grounded_placeOf`). A path in shortest form can be
followed exactly if they do (`passes_spell`).

A path seen from another one is followed from the other's place on (`passes_append`). So two spellings of a directory hold
the same on a disk, if it can follow both or neither (`onDisk_append_congr`).
-/

namespace EditorService.FileTree

open EditorService.Path (IsName addSegment isAbsolute appendAll spell walk)
open EditorService.Text (split join)

variable {t : FileTree} {place segs names : List (List Char)} {p q : List Char}

/-! ## One segment after another -/

theorem passesFrom_append (t : FileTree) (place front rest : List (List Char)) :
    t.passesFrom place (front ++ rest) =
      (t.passesFrom place front && t.passesFrom (front.foldl (addSegment true) place) rest) := by
  induction front generalizing place with
  | nil => rfl
  | cons s front ih => rw [List.cons_append, passesFrom, passesFrom, ih, Bool.and_assoc, List.foldl_cons]

theorem passesFrom_singleton (t : FileTree) (place : List (List Char)) (s : List Char) :
    t.passesFrom place [s] = t.standing place := Bool.and_true _

/-- A walk that has a segment to take needs a directory to start in. -/
theorem standing_and_passesFrom (t : FileTree) (place : List (List Char)) (h : segs ≠ []) :
    (t.standing place && t.passesFrom place segs) = t.passesFrom place segs := by
  obtain ⟨s, rest, rfl⟩ := List.exists_cons_of_ne_nil h
  rw [passesFrom, ← Bool.and_assoc, Bool.and_self]

theorem standing_of_passesFrom (h : t.passesFrom place segs = true) (hne : segs ≠ []) : t.standing place = true := by
  rw [← standing_and_passesFrom t place hne, Bool.and_eq_true_iff] at h
  exact h.1

theorem passesFrom_split_append (t : FileTree) (start : List (List Char)) (p : List Char) (hq : isAbsolute q = false) :
    t.passesFrom start (split '/' (Path.append p q)) =
      (t.passesFrom start (split '/' p) && t.passesFrom (walk start p) (split '/' q)) := by
  have hsome := Text.split_ne_nil '/' q
  rcases Path.eq_nil_or_slash_or p with rfl | ⟨front, rfl⟩ | ⟨hne, hlast⟩
  · have hnil : t.passesFrom start (split '/' []) = t.standing start := t.passesFrom_singleton start []
    rw [Path.append_nil_left, Path.walk_nil, hnil, standing_and_passesFrom t start hsome]
  · have hsplit : split '/' (front ++ ['/']) = split '/' front ++ [[]] := Text.split_append front []
    rw [Path.append_slash hq, Text.split_append, hsplit, passesFrom_append, passesFrom_append, passesFrom_singleton,
      Path.walk_slash, Path.walk_nil, Bool.and_assoc]
    exact congrArg _ (t.standing_and_passesFrom _ hsome).symm
  · rw [Path.append_of_getLast hq hne hlast, Text.split_append, passesFrom_append]
    rfl

/-- **A path seen from another is followed from the other's place on.** -/
theorem passes_append (t : FileTree) (p : List Char) (hq : isAbsolute q = false) :
    t.passes (Path.append p q) = (t.passes p && t.passesFrom (t.placeOf p) (split '/' q)) := by
  cases hp : isAbsolute p with
  | true =>
    rw [passes, passes, Path.append_of_isAbsolute hp, Path.append_of_isAbsolute (Path.isAbsolute_append hp q),
      placeOf_of_isAbsolute hp, passesFrom_split_append t [] p hq]
    rfl
  | false =>
    have hboth : isAbsolute (Path.append p q) = false := (Path.isAbsolute_append_of_relative p hq).trans hp
    rw [passes, passes, passesFrom_split_append t [] _ hboth, passesFrom_split_append t [] _ hp,
      passesFrom_split_append t _ p hq, placeOf_of_relative hp, Bool.and_assoc]
    rfl

theorem passes_appendAll (t : FileTree) (hsegs : ∀ s ∈ segs, '/' ∉ s) (p : List Char) :
    t.passes (appendAll p segs) = (t.passes p && t.passesFrom (t.placeOf p) segs) := by
  induction segs generalizing p with
  | nil => exact (Bool.and_true _).symm
  | cons s rest ih =>
    have hs := hsegs s List.mem_cons_self
    have hrelative := Path.isAbsolute_of_notMem hs
    have hrest := ih (fun s hs => hsegs s (List.mem_cons_of_mem _ hs)) (Path.append p s)
    rw [passes_append t p hrelative, placeOf_append t p hrelative, Text.split_of_notMem hs, passesFrom_singleton,
      Path.walk_of_notMem hs, Bool.and_assoc] at hrest
    exact hrest

/-! ## The directories above a place -/

/-- **All directories above a place exist.** -/
def Grounded (t : FileTree) (place : List (List Char)) : Prop :=
  ∀ above, above <+: place → above ≠ place → t.standing above = true

theorem grounded_nil (t : FileTree) : t.Grounded [] := fun _ hinit hne => absurd (List.prefix_nil.mp hinit) hne

theorem Grounded.of_init (h : t.Grounded place) {front : List (List Char)} (hfront : front <+: place) :
    t.Grounded front := by
  intro above habove hne
  refine h above (habove.trans hfront) ?_
  rintro rfl
  exact hne (habove.eq_of_length_le hfront.length_le)

theorem Grounded.standing (h : t.Grounded (place ++ names)) (hne : names ≠ []) : t.standing place = true :=
  h place (List.prefix_append _ _) fun heq => hne (List.append_right_eq_self.mp heq.symm)

theorem Grounded.concat (h : t.Grounded place) (hplace : t.standing place = true) (s : List Char) :
    t.Grounded (place ++ [s]) := by
  intro above habove hne
  rcases List.prefix_concat_iff.mp habove with rfl | habove
  · exact absurd rfl hne
  · by_cases heq : above = place
    · rw [heq, hplace]
    · exact h above habove heq

/-- A segment leads from such a place to another. -/
theorem Grounded.addSegment (h : t.Grounded place) (hplace : t.standing place = true)
    (hnames : ∀ s ∈ place, IsName s) (s : List Char) : t.Grounded (addSegment true place s) := by
  by_cases hdots : s = ['.', '.']
  · rw [hdots, Path.addSegment_dots hnames]
    exact h.of_init (List.dropLast_prefix place)
  · unfold Path.addSegment
    split
    · exact h
    · rw [if_neg (by simpa using hdots)]
      exact h.concat hplace s

theorem grounded_foldl (h : t.Grounded place) (hnames : ∀ s ∈ place, IsName s) (hsegs : ∀ s ∈ segs, '/' ∉ s)
    (hpasses : t.passesFrom place segs = true) : t.Grounded (segs.foldl (addSegment true) place) := by
  induction segs generalizing place with
  | nil => exact h
  | cons s rest ih =>
    obtain ⟨hplace, hrest⟩ := Bool.and_eq_true_iff.mp hpasses
    exact ih (h.addSegment hplace hnames s) (Path.isName_of_mem_addSegment hnames (hsegs s List.mem_cons_self))
      (fun s hs => hsegs s (List.mem_cons_of_mem _ hs)) hrest

/-- **A path that can be followed leads to where all directories above exist.** -/
theorem grounded_placeOf (h : t.passes p = true) : t.standing [] = true ∧ t.Grounded (t.placeOf p) :=
  ⟨standing_of_passesFrom h (Text.split_ne_nil _ _),
    grounded_foldl t.grounded_nil (fun _ hs => absurd hs List.not_mem_nil) (fun _ => Text.notMem_of_mem_split) h⟩

/-- Names can be followed exactly if the directories above the last one exist. -/
theorem passesFrom_names (h : t.Grounded place) (hnames : ∀ s ∈ names, IsName s) :
    t.passesFrom place names = true ↔ t.Grounded (place ++ names) := by
  induction names generalizing place with
  | nil =>
    rw [List.append_nil]
    exact iff_of_true rfl h
  | cons s rest ih =>
    have hsplit : place ++ s :: rest = (place ++ [s]) ++ rest := by simp
    have hrest : ∀ s ∈ rest, IsName s := fun s hs => hnames s (List.mem_cons_of_mem _ hs)
    rw [passesFrom, Bool.and_eq_true_iff, Path.addSegment_name (hnames s List.mem_cons_self)]
    constructor
    · rintro ⟨hplace, hpasses⟩
      rw [hsplit]
      exact (ih (h.concat hplace s) hrest).mp hpasses
    · intro hgrounded
      refine ⟨hgrounded.standing (List.cons_ne_nil _ _), ?_⟩
      rw [hsplit] at hgrounded
      exact (ih (hgrounded.of_init (List.prefix_append _ _)) hrest).mpr hgrounded

/-- **A path in shortest form can be followed exactly if all directories above its place exist.** -/
theorem passes_spell {root : List Char} (hroot : isAbsolute root = true) (hnames : ∀ s ∈ names, IsName s) :
    t.passes (spell root names) = true ↔ t.standing [] = true ∧ t.Grounded names := by
  have hjoin : t.standing [] = true →
      (t.passesFrom [] (split '/' (join ['/'] names)) = true ↔ t.Grounded names) := by
    intro hstanding
    by_cases hne : names = []
    · subst hne
      exact iff_of_true ((t.passesFrom_singleton [] []).trans hstanding) t.grounded_nil
    · rw [Text.split_join hne fun s hs => (hnames s hs).whole]
      exact passesFrom_names t.grounded_nil hnames
  have hslash : ∀ rest, t.passesFrom [] (split '/' ('/' :: rest)) = (t.standing [] && t.passesFrom [] (split '/' rest)) :=
    fun rest => by rw [show '/' :: rest = [] ++ '/' :: rest from rfl, Text.split_append]; rfl
  rw [passes, Path.append_of_isAbsolute (Path.isAbsolute_spell hroot names), spell]
  rcases Path.rootOf_eq_or hroot with h | h
  · rw [h, List.singleton_append, hslash, Bool.and_eq_true_iff]
    exact and_congr_right hjoin
  · rw [h, show ['/', '/'] ++ join ['/'] names = '/' :: '/' :: join ['/'] names from rfl, hslash, hslash, ← Bool.and_assoc,
      Bool.and_self, Bool.and_eq_true_iff]
    exact and_congr_right hjoin

/-- Up from a directory that exists, all is there. -/
theorem passesFrom_dots (h : t.Grounded place) (hplace : t.standing place = true) (hnames : ∀ s ∈ place, IsName s)
    (n : Nat) :
    t.passesFrom place (List.replicate n ['.', '.']) = true ∧
      t.Grounded ((List.replicate n ['.', '.']).foldl (addSegment true) place) := by
  induction n generalizing place with
  | zero => exact ⟨rfl, h⟩
  | succ n ih =>
    have hup : t.standing place.dropLast = true := by
      rcases List.eq_nil_or_concat place with rfl | ⟨front, last, rfl⟩
      · exact hplace
      · rw [List.concat_eq_append] at h ⊢
        rw [List.dropLast_concat]
        exact h.standing (List.cons_ne_nil _ _)
    rw [List.replicate_succ, passesFrom, List.foldl_cons, Path.addSegment_dots hnames, hplace, Bool.true_and]
    exact ih (h.of_init (List.dropLast_prefix place)) hup fun s hs => hnames s (List.dropLast_subset place hs)

/-! ## Lookups -/

theorem isDirectory_ofList (h : isAbsolute p = true) (t : FileTree) :
    t.isDirectory (String.ofList p) = t.standing (Path.place p) := by
  have hspell : isAbsolute (spell ['/'] (Path.place p)) = true := Path.isAbsolute_spell rfl _
  have hlocate : ∀ {r : List Char}, isAbsolute r = true → Path.place r = Path.place p →
      t.locate (String.ofList r) = String.ofList ('/' :: join ['/'] (Path.place p)) := by
    intro r hr hplace
    rw [locate_ofList (by rw [Path.append_of_isAbsolute hr, hr]), placeOf_of_isAbsolute hr, hplace]
  have hsome : ∀ {r : List Char}, isAbsolute r = true → (String.ofList r != "") = true := by
    intro r hr
    simpa using Path.ne_nil_of_isAbsolute hr
  show t.isDirectory (String.ofList p) = t.isDirectory (String.ofList (spell ['/'] (Path.place p)))
  simp only [isDirectory, hlocate h rfl, hlocate hspell (Path.place_spell rfl Path.isName_of_mem_place), hsome h,
    hsome hspell]

theorem isDirectoryOnDisk_iff {path : String} (h : isAbsolute path.toList = true) :
    t.isDirectoryOnDisk path = true ↔ t.standing (Path.place path.toList) = true ∧ t.passes path.toList = true := by
  rw [isDirectoryOnDisk, Bool.and_eq_true_iff, ← isDirectory_ofList h, String.ofList_toList]

theorem onDisk_ofList (t : FileTree) (p : List Char) :
    t.onDisk (String.ofList p) = (t.has (String.ofList p) && t.passes p) := by
  rw [onDisk, String.toList_ofList]

/-- **Two spellings of a directory hold the same on a disk**, if the disk can follow both or neither. -/
theorem onDisk_append_congr {dir other : List Char} (hdir : isAbsolute dir = true) (hother : isAbsolute other = true)
    (hplace : Path.place dir = Path.place other)
    (hsame : t.standing (Path.place dir) = true → t.passes dir = t.passes other) (name : List Char) :
    t.onDisk (String.ofList (Path.append dir name)) = t.onDisk (String.ofList (Path.append other name)) := by
  cases hname : isAbsolute name with
  | true => rw [Path.append_of_isAbsolute hname, Path.append_of_isAbsolute hname]
  | false =>
    have hhas : t.has (String.ofList (Path.append dir name)) = t.has (String.ofList (Path.append other name)) := by
      refine has_congr_of_isAbsolute (Path.isAbsolute_append hdir name) (Path.isAbsolute_append hother name) ?_
      rw [Path.place_append dir hname, Path.place_append other hname, hplace]
    rw [onDisk_ofList, onDisk_ofList, hhas, passes_append t dir hname, passes_append t other hname,
      placeOf_of_isAbsolute hdir, placeOf_of_isAbsolute hother, ← hplace]
    cases hrest : t.passesFrom (Path.place dir) (split '/' name) with
    | false => simp only [Bool.and_false]
    | true => rw [hsame (standing_of_passesFrom hrest (Text.split_ne_nil _ _))]

end EditorService.FileTree
