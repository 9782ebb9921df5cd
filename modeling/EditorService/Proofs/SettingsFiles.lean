import EditorService.Config

/-!
# The files that settings come from

Settings are read from few files: the user's file of each source, and files of a project that have one of the names that
a source knows. Nothing else on disk matters to them. So surroundings that agree on these files, `SameSettingsFiles`,
give every configuration the same settings for every path (`compute_congr`).
-/

namespace EditorService

theorem Path.base_append {name : List Char} (h : '/' ∉ name) (dir : List Char) : base (append dir name) = name := by
  have hbase : ∀ front : List Char, base (front ++ '/' :: name) = name := by
    intro front
    simp only [base, cutLast, Text.splitLast_append h]
  have habsolute : isAbsolute name = false := by
    cases name with
    | nil => rfl
    | cons c rest =>
      have hc : c ≠ '/' := fun heq => h (heq ▸ List.mem_cons_self)
      simp [isAbsolute, hc]
  simp only [append, habsolute, Bool.false_eq_true, if_false]
  split
  · next hfront =>
    rcases List.eq_nil_or_concat dir with rfl | ⟨front, last, rfl⟩
    · simp only [List.nil_append, base, cutLast, Text.splitLast_of_notMem h]
    · have hlast : last = '/' := by simpa using hfront
      simpa [hlast] using hbase front
  · exact hbase dir

namespace Search

/-! ## Searches -/

variable {there there' : String → Bool} {names : List String}

theorem baseOf_of_mem_namesIn (hnames : ∀ n ∈ names, '/' ∉ n.toList) {dir : List Char} {path : String}
    (h : path ∈ namesIn there dir names) : Path.baseOf path ∈ names := by
  obtain ⟨n, hn, rfl⟩ := List.mem_map.mp (List.mem_filter.mp h).1
  have hbase : Path.baseOf (String.ofList (Path.append dir n.toList)) = n := by
    simp [Path.baseOf, Path.base_append (hnames n hn)]
  rw [hbase]
  exact hn

theorem baseOf_of_mem_searchUp (hnames : ∀ n ∈ names, '/' ∉ n.toList) {path : String} (chain : List (List Char))
    (h : path ∈ searchUp there names chain) : Path.baseOf path ∈ names := by
  induction chain with
  | nil => exact nomatch h
  | cons dir outer ih =>
    simp only [searchUp] at h
    split at h
    · exact ih h
    · exact baseOf_of_mem_namesIn hnames h

theorem baseOf_of_mem_findParents (hnames : ∀ n ∈ names, '/' ∉ n.toList) {root path file : String}
    {found : List String} (h : findParents there root path names = .ok found) (hfile : file ∈ found) :
    Path.baseOf file ∈ names := by
  simp only [findParents] at h
  split at h
  · cases h
    exact nomatch hfile
  · obtain ⟨chain, -, hfound⟩ := Fault.bind_eq_ok.mp h
    cases hfound
    exact baseOf_of_mem_searchUp hnames _ hfile

section

variable (hnames : ∀ n ∈ names, '/' ∉ n.toList) (h : ∀ path, Path.baseOf path ∈ names → there' path = there path)

include hnames h

theorem namesIn_congr (dir : List Char) : namesIn there' dir names = namesIn there dir names := by
  refine List.filter_congr fun path hpath => ?_
  obtain ⟨n, hn, rfl⟩ := List.mem_map.mp hpath
  refine h _ ?_
  simpa [Path.baseOf, Path.base_append (hnames n hn)] using hn

theorem searchUp_congr (chain : List (List Char)) : searchUp there' names chain = searchUp there names chain := by
  induction chain with
  | nil => rfl
  | cons dir outer ih => simp only [searchUp, namesIn_congr hnames h, ih]

/-- Only the paths with one of the names matter to a search. -/
theorem findParents_congr (root path : String) :
    findParents there' root path names = findParents there root path names := by
  simp only [findParents, searchUp_congr hnames h]

end

end Search

namespace FileTree

/-- **Two file systems hold the same at a path.** -/
structure SameAt (t t' : FileTree) (path : String) : Prop where
  has : t'.has path = t.has path
  isFile : t'.isFile path = t.isFile path
  read : t'.read path = t.read path

end FileTree

namespace Settings.Source

open EditorService.FileTree (SameAt)

theorem readFiles_congr {t t' : FileTree} {paths : List String} (h : ∀ path ∈ paths, SameAt t t' path) :
    readFiles t' paths = readFiles t paths := by
  simp only [readFiles]
  generalize ({} : Ini) = ini
  induction paths generalizing ini with
  | nil => rfl
  | cons path rest ih =>
    have hpath := h path List.mem_cons_self
    have hrest : ∀ p ∈ rest, SameAt t t' p := fun p hp => h p (List.mem_cons_of_mem path hp)
    simp only [List.foldlM_cons, hpath.isFile, hpath.read]
    refine congrArg _ (funext fun ini => ?_)
    exact ih hrest ini

theorem projectFiles_plain (s : Source) : ∀ n ∈ s.projectFiles, '/' ∉ n.toList := by
  cases s <;> decide

end Settings.Source

namespace Host

open EditorService.FileTree (SameAt)
open EditorService.Settings (Source)

/-- **Surroundings with the same settings files**: the user's files are the same ones, and these and all files that have
the name of a project's settings file hold the same. -/
structure SameSettingsFiles (h h' : Host) : Prop where
  userFile : ∀ s, Source.userFile h' s = Source.userFile h s
  user : ∀ s, SameAt h.files h'.files (Source.userFile h s)
  project : ∀ (s : Source) path, Path.baseOf path ∈ s.projectFiles → SameAt h.files h'.files path

theorem SameSettingsFiles.refl (h : Host) : SameSettingsFiles h h :=
  ⟨fun _ => rfl, fun _ => ⟨rfl, rfl, rfl⟩, fun _ _ _ => ⟨rfl, rfl, rfl⟩⟩

variable {h h' : Host}

theorem SameSettingsFiles.userSettings (hsame : SameSettingsFiles h h') (s : Source) :
    s.userSettings h' = s.userSettings h := by
  have hread : ∀ s,
      Source.readFiles h'.files [Source.userFile h' s] = Source.readFiles h.files [Source.userFile h s] := by
    intro s
    rw [hsame.userFile]
    refine Source.readFiles_congr fun path hpath => ?_
    rw [List.mem_singleton.mp hpath]
    exact hsame.user s
  cases s with
  | base => rfl
  | flake8 => simp only [Source.userSettings, Source.settingsIn, hread]
  | pycodestyle => simp only [Source.userSettings, Source.settingsIn, hread]

theorem SameSettingsFiles.projectSettings (hsame : SameSettingsFiles h h') (s : Source) (root path : String) :
    s.projectSettings h' root path = s.projectSettings h root path := by
  have hgiven : (h'.files.findParents root path s.projectFiles >>= s.settingsIn h'.files) =
      (h.files.findParents root path s.projectFiles >>= s.settingsIn h.files) := by
    have hsearch : h'.files.findParents root path s.projectFiles = h.files.findParents root path s.projectFiles :=
      Search.findParents_congr s.projectFiles_plain (fun path hpath => (hsame.project s path hpath).has) root path
    rw [hsearch]
    cases hfound : h.files.findParents root path s.projectFiles with
    | error f => rfl
    | ok found =>
      have hread : Source.readFiles h'.files found = Source.readFiles h.files found :=
        Source.readFiles_congr fun file hfile =>
          hsame.project s file (Search.baseOf_of_mem_findParents s.projectFiles_plain hfound hfile)
      change s.settingsIn h'.files found = s.settingsIn h.files found
      simp only [Source.settingsIn, hread]
  cases s with
  | base => rfl
  | flake8 => exact hgiven
  | pycodestyle => exact hgiven

/-- **Settings come from settings files.** -/
theorem SameSettingsFiles.compute_congr (hsame : SameSettingsFiles h h') (c : Config) (path : Option String) :
    c.compute h' path = c.compute h path := by
  simp only [Config.compute, hsame.userSettings, hsame.projectSettings]

end Host

end EditorService
