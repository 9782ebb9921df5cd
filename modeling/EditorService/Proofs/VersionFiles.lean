import EditorService.Version.File
import EditorService.Proofs.JsonNotation
import EditorService.Proofs.OutputLines
import EditorService.Proofs.PathPlaces
import EditorService.Proofs.Routines

/-!
# Version files, written and read back

A version file holds what is known between two marks. What is known may hold the text of either mark: the first opening mark
counts, and the one that was written stands behind a head without one; the last closing mark counts, and the one that
was written stands before a tail without one.

* **Between the marks** (`embedded?_marked`): the text between the marks is found again, whatever it is.
* **Files** (`FileTree.Sound`): nothing lies in a file, so a file may be removed and written anew
  (`FileTree.Sound.exists_replace`).

**The law** (`version_file_reads_back`): a version file that was replaced says what is known.
-/

namespace EditorService

/-- A text without carriage returns is read from a file as it is. -/
theorem Text.unifyBreaks_of_notMem {s : List Char} (h : '\r' ∉ s) : unifyBreaks s = s := by
  fun_induction unifyBreaks s with
  | case1 => rfl
  | case2 c hc => exact absurd (List.mem_singleton.mpr (beq_iff_eq.mp hc).symm) h
  | case3 c hc => rfl
  | case4 c d rest hc hd ih => exact absurd (beq_iff_eq.mp hc ▸ List.mem_cons_self) h
  | case5 c d rest hc hd ih => exact absurd (beq_iff_eq.mp hc ▸ List.mem_cons_self) h
  | case6 c d rest hc ih => rw [ih fun hmem => h (List.mem_cons_of_mem c hmem)]

theorem Text.toList_unlines (lines : List String) : (unlines lines).toList = lines.flatMap fun l => l.toList ++ ['\n'] := by
  simp [unlines, List.flatMap_map]

/-! ## Between the marks -/

namespace Version

theorem afterFirst?_cons (part : List Char) (c : Char) (rest : List Char) :
    afterFirst? part (c :: rest) = (Text.dropPrefix? part (c :: rest)).or (afterFirst? part rest) := rfl

/-- **The first occurrence of a part is found** behind a text, if none starts in that text. An earlier one would
end before the last character of the part. -/
theorem afterFirst?_append {part head : List Char} (hpart : part ≠ []) (h : afterFirst? part (head ++ part.dropLast) = none)
    (rest : List Char) : afterFirst? part (head ++ (part ++ rest)) = some rest := by
  induction head with
  | nil =>
    obtain ⟨c, more, rfl⟩ := List.exists_cons_of_ne_nil hpart
    rw [List.nil_append, List.cons_append, afterFirst?_cons, ← List.cons_append, Text.dropPrefix?_eq_some_iff.mpr rfl]
    rfl
  | cons c head ih =>
    rw [List.cons_append, afterFirst?_cons, Option.or_eq_none_iff] at h
    have hhere : Text.dropPrefix? part (c :: (head ++ (part ++ rest))) = none := by
      refine Option.eq_none_iff_forall_ne_some.mpr fun after hafter => ?_
      have hstart := Text.dropPrefix?_eq_some_iff.mp hafter
      -- Both texts start alike, for longer than the part.
      have halike : c :: (head ++ part.dropLast) <+: c :: (head ++ (part ++ rest)) := by
        refine ⟨part.getLast hpart :: rest, ?_⟩
        conv_rhs => rw [← List.dropLast_append_getLast hpart]
        simp
      have hlength : part.length ≤ (c :: (head ++ part.dropLast)).length := by
        simp only [List.length_cons, List.length_append, List.length_dropLast]
        omega
      have hboth : part <+: c :: (head ++ part.dropLast) :=
        List.prefix_of_prefix_length_le ⟨after, hstart.symm⟩ halike hlength
      obtain ⟨after', hafter'⟩ := hboth
      rw [Text.dropPrefix?_eq_some_iff.mpr hafter'.symm] at h
      cases h.1
    rw [List.cons_append, afterFirst?_cons, hhere, Option.none_or, ih h.2]

/-- **What stands between the marks is found again**, also if it holds them. -/
theorem embedded?_marked (s : List Char) :
    embedded? (versionHead.toList ++ (openingMark.toList ++ (s ++ (closingMark.toList ++ versionTail.toList)))) =
      some s := by
  have hopening : afterFirst? openingMark.toList (versionHead.toList ++ openingMark.toList.dropLast) = none := by
    rw [versionHead, Text.toList_unlines]
    decide +kernel
  have hclosing : afterFirst? closingMark.toList.reverse
      (versionTail.toList.reverse ++ closingMark.toList.reverse.dropLast) = none := by
    rw [versionTail, Text.toList_unlines]
    decide +kernel
  have hreversed : (s ++ (closingMark.toList ++ versionTail.toList)).reverse =
      versionTail.toList.reverse ++ (closingMark.toList.reverse ++ s.reverse) := by simp
  rw [embedded?, afterFirst?_append (by decide) hopening, Option.bind_some, beforeLast?, hreversed,
    afterFirst?_append (by decide) hclosing, Option.map_some, List.reverse_reverse]

end Version

/-! ## Replacing a file -/

namespace Path

variable {names : List (List Char)} {last : List Char}

theorem spell_concat (hne : names ≠ []) (last : List Char) :
    spell ['/'] (names ++ [last]) = spell ['/'] names ++ '/' :: last := by
  rw [spell, spell, Text.join_append hne (List.cons_ne_nil last []), List.append_assoc, List.append_assoc]
  rfl

/-- **The directory of a place** is the one above it. -/
theorem directory_spell (h : ∀ s ∈ names ++ [last], IsName s) :
    directory (spell ['/'] (names ++ [last])) = spell ['/'] names := by
  have hlast : IsName last := h last (by simp)
  by_cases hne : names = []
  · subst hne
    exact directory_slash hlast.whole []
  · obtain ⟨front, inner, rfl⟩ : ∃ front inner, names = front ++ [inner] := by
      rcases List.eq_nil_or_concat names with hnil | ⟨front, inner, hconcat⟩
      · exact absurd hnil hne
      · exact ⟨front, inner, hconcat.trans (List.concat_eq_append ..)⟩
    have hinner : IsName inner := h inner (by simp)
    obtain ⟨before, hbefore⟩ : ∃ before, spell ['/'] (front ++ [inner]) = before ++ inner := by
      by_cases hfront : front = []
      · exact ⟨['/'], by rw [hfront]; rfl⟩
      · exact ⟨spell ['/'] front ++ ['/'], by rw [spell_concat hfront]; simp⟩
    have hend : (spell ['/'] (front ++ [inner])).getLast? ≠ some '/' := by
      rw [hbefore, List.getLast?_append_of_ne_nil _ hinner.ne_nil]
      exact fun hslash => hinner.whole (List.mem_of_getLast? hslash)
    rw [spell_concat hne, directory_slash hlast.whole]
    exact settle_append (ne_nil_of_isAbsolute (isAbsolute_spell rfl _)) hend 1

end Path

namespace FileTree

variable {t : FileTree} {path : String}

/-- **A file system in which nothing lies in a file**, with a current directory. -/
structure Sound (t : FileTree) : Prop where
  current_isAbsolute : Path.isAbsolute t.current.toList = true
  root_notMem : "/" ∉ t.files.keys
  file_not_within : ∀ p ∈ t.files.keys, ∀ q ∈ t.files.keys, within p q = false
  directory_not_within : ∀ p ∈ t.files.keys, ∀ d ∈ t.directories, d ≠ p ∧ within p d = false

theorem locate_spell {names : List (List Char)} (h : ∀ s ∈ names, Path.IsName s) :
    t.locate (String.ofList (Path.spell ['/'] names)) = String.ofList (Path.spell ['/'] names) := by
  have habsolute : Path.isAbsolute (Path.spell ['/'] names) = true := Path.isAbsolute_spell rfl names
  rw [locate_ofList (by rw [Path.append_of_isAbsolute habsolute, habsolute]), placeOf_of_isAbsolute habsolute,
    Path.place_spell rfl h]
  rfl

theorem mem_keys_of_isFile (h : t.isFile path = true) : t.locate path ∈ t.files.keys := by
  simp only [isFile, Bool.and_eq_true] at h
  exact (Table.mem_keys_iff _ _).mpr h.2

/-- **The absolute path of a file** has a name at its end. -/
theorem Sound.exists_names (ht : t.Sound) (hfile : t.isFile path = true) :
    ∃ names last, (∀ s ∈ names ++ [last], Path.IsName s) ∧
      t.locate path = String.ofList (Path.spell ['/'] (names ++ [last])) := by
  have hlocate : t.locate path = String.ofList (Path.spell ['/'] (t.placeOf path.toList)) := by
    have hself := locate_ofList (Path.isAbsolute_append ht.current_isAbsolute path.toList)
    rwa [String.ofList_toList] at hself
  rcases List.eq_nil_or_concat (t.placeOf path.toList) with hnil | ⟨names, last, hconcat⟩
  · have hroot : t.locate path = "/" := by
      rw [hlocate, hnil]
      rfl
    exact absurd (hroot ▸ mem_keys_of_isFile hfile) ht.root_notMem
  · rw [List.concat_eq_append] at hconcat
    exact ⟨names, last, hconcat ▸ Path.isName_of_mem_place, by rw [hlocate, hconcat]⟩

section

variable {names : List (List Char)} {last : List Char}

theorem ne_root_of_names (h : ∀ s ∈ names, Path.IsName s) (hne : names ≠ []) :
    String.ofList (Path.spell ['/'] names) ≠ "/" := by
  intro heq
  have hroot : Path.spell ['/'] names = ['/'] := by simpa using congrArg String.toList heq
  have hplace : Path.place (Path.spell ['/'] names) = names := Path.place_spell rfl h
  rw [hroot] at hplace
  exact hne hplace.symm

variable (h : ∀ s ∈ names ++ [last], Path.IsName s)

include h

theorem directoryOf_spell :
    Path.directoryOf (String.ofList (Path.spell ['/'] (names ++ [last]))) = String.ofList (Path.spell ['/'] names) := by
  rw [Path.directoryOf, String.toList_ofList, Path.directory_spell h]

theorem within_directory :
    within (String.ofList (Path.spell ['/'] names)) (String.ofList (Path.spell ['/'] (names ++ [last]))) = true := by
  by_cases hne : names = []
  · subst hne
    have hroot : String.ofList (Path.spell ['/'] []) = "/" := rfl
    rw [within, hroot, if_pos (beq_self_eq_true _), bne_iff_ne]
    exact ne_root_of_names h (List.cons_ne_nil last [])
  · have hroot := ne_root_of_names (fun s hs => h s (List.mem_append_left _ hs)) hne
    rw [within, if_neg (by simpa using hroot), Text.hasPrefix, Text.startsWith_iff, Path.spell_concat hne]
    exact ⟨last, by simp⟩

/-- A directory neither is nor lies in a file of its own. -/
theorem directory_outside :
    String.ofList (Path.spell ['/'] names) ≠ String.ofList (Path.spell ['/'] (names ++ [last])) ∧
      within (String.ofList (Path.spell ['/'] (names ++ [last]))) (String.ofList (Path.spell ['/'] names)) = false := by
  have hlength : (Path.spell ['/'] names).length < (Path.spell ['/'] (names ++ [last])).length := by
    by_cases hne : names = []
    · subst hne
      have hlast := List.length_pos_iff.mpr (h last (by simp)).ne_nil
      simpa [Path.spell, Text.join] using hlast
    · rw [Path.spell_concat hne]
      simp
  constructor
  · intro heq
    rw [String.ofList_inj.mp heq] at hlength
    exact absurd hlength (Nat.lt_irrefl _)
  · have hroot := ne_root_of_names h (by simp)
    rw [within, if_neg (by simpa using hroot), Text.hasPrefix]
    refine Bool.eq_false_iff.mpr fun hstarts => ?_
    obtain ⟨rest, hrest⟩ := Text.startsWith_iff.mp hstarts
    have hlonger := congrArg List.length hrest
    simp only [String.toList_append, String.toList_ofList, List.length_append] at hlonger
    omega

end

/-- What is left when a file is gone: its directory is listed. -/
def without (t : FileTree) (p : String) : FileTree :=
  { t with files := Table.erase t.files p, directories := t.directories ++ [Path.directoryOf p] }

@[simp] theorem files_without (t : FileTree) (p : String) : (t.without p).files = Table.erase t.files p := rfl

@[simp] theorem directories_without (t : FileTree) (p : String) :
    (t.without p).directories = t.directories ++ [Path.directoryOf p] := rfl

@[simp] theorem locate_without (t : FileTree) (p q : String) : (t.without p).locate q = t.locate q := rfl

theorem remove_eq_without (h : t.isFile path = true) : t.remove path = .ok (t.without (t.locate path)) := by
  have hhas : Table.has t.files (t.locate path) = true := by
    simp only [isFile, Bool.and_eq_true] at h
    exact h.2
  rw [remove, if_pos h, erase, if_pos hhas]
  rfl

/-- **Where a file was there is nothing**, and its directory is still there. -/
theorem Sound.isDirectory_without (ht : t.Sound) (h : t.isFile path = true) :
    (t.without (t.locate path)).isDirectory path = false ∧
      (t.without (t.locate path)).isDirectory (Path.directoryOf (t.locate path)) = true := by
  have hmem := mem_keys_of_isFile h
  obtain ⟨names, last, hnames, hlocate⟩ := ht.exists_names h
  have hdirectory : Path.directoryOf (t.locate path) = String.ofList (Path.spell ['/'] names) := by
    rw [hlocate, directoryOf_spell hnames]
  obtain ⟨hne, houtside⟩ := directory_outside hnames
  have hwithin := within_directory hnames
  rw [← hlocate, ← hdirectory] at hne houtside hwithin
  constructor
  · have hroot : t.locate path ≠ "/" := fun heq => ht.root_notMem (heq ▸ hmem)
    have hdirs : ((t.directories ++ [Path.directoryOf (t.locate path)]).any
        fun d => d == t.locate path || within (t.locate path) d) = false := by
      refine List.any_eq_false.mpr fun d hd => ?_
      rcases List.mem_append.mp hd with hd | hd
      · simpa using ht.directory_not_within _ hmem d hd
      · rw [List.mem_singleton.mp hd]
        simpa using ⟨hne, houtside⟩
    have hfiles : ((Table.erase t.files (t.locate path)).any fun f => within (t.locate path) f.1) = false := by
      refine List.any_eq_false.mpr fun f hf => ?_
      have hkey : f.1 ∈ t.files.keys := List.mem_map_of_mem (List.mem_filter.mp hf).1
      simpa using ht.file_not_within _ hmem f.1 hkey
    simp only [isDirectory, locate_without, files_without, directories_without, beq_eq_false_iff_ne.mpr hroot, hdirs, hfiles,
      Bool.or_false, Bool.and_false]
  · have hself : t.locate (Path.directoryOf (t.locate path)) = Path.directoryOf (t.locate path) := by
      rw [hdirectory, locate_spell fun s hs => hnames s (List.mem_append_left _ hs)]
    have hfree : Table.has (Table.erase t.files (t.locate path)) (Path.directoryOf (t.locate path)) = false := by
      rw [Table.has, Table.get?_erase_of_ne _ hne]
      refine Bool.eq_false_iff.mpr fun hfile => ?_
      have hclash := ht.file_not_within _ ((Table.mem_keys_iff _ _).mpr hfile) _ hmem
      rw [hwithin] at hclash
      cases hclash
    have hsome : Path.directoryOf (t.locate path) ≠ "" := by
      rw [hdirectory]
      simpa using Path.ne_nil_of_isAbsolute (Path.isAbsolute_spell rfl names)
    simp [isDirectory, hself, hfree, hsome]

/-- **A file may be replaced**: it is removed and written anew, and then read as it was written. -/
theorem Sound.exists_replace (ht : t.Sound) (hfile : t.isFile path = true) {text : String} (htext : '\r' ∉ text.toList) :
    ∃ removed written, t.remove path = .ok removed ∧ removed.write path text = .ok written ∧
      written.read path = .ok text := by
  obtain ⟨hgone, hstays⟩ := ht.isDirectory_without hfile
  have hpath : ¬ (path == "") = true := by
    simp only [isFile, Bool.and_eq_true, bne_iff_ne] at hfile
    simpa using hfile.1
  have hwrite : (t.without (t.locate path)).write path text = .ok ((t.without (t.locate path)).put path (.text text)) := by
    rw [write, if_neg hpath, hgone, if_neg Bool.false_ne_true, locate_without, if_pos hstays]
  have hread : ((t.without (t.locate path)).put path (.text text)).read path = .ok text := by
    have hcontent : Table.get? ((t.without (t.locate path)).put path (.text text)).files
        (((t.without (t.locate path)).put path (.text text)).locate path) = some (.text text) := Table.get?_put_self _ _ _
    simp only [read, if_neg hpath, hcontent, textOf, Text.unifyBreaks_of_notMem htext, String.ofList_toList]
  exact ⟨_, _, remove_eq_without hfile, hwrite, hread⟩

end FileTree

/-! ## The law -/

namespace Version

variable {c : Console} {path : String}

theorem perform_changeFiles {change : FileTree → Except Fault FileTree} {files : FileTree}
    (h : change c.host.files = .ok files) :
    (Routine.changeFiles change).perform c = (.ok (), { c with host := { c.host with files } }) := by
  have hfiles : Routine.files.perform c = (.ok c.host.files, c) := rfl
  rw [Routine.changeFiles, Routine.perform_bind_ok hfiles, h]
  rfl

theorem perform_writeVersionFile {known version : Value} {removed written : FileTree}
    (hremove : c.host.files.remove path = .ok removed) (hwrite : removed.write path (versionText known) = .ok written)
    (hversion : known.item "version" = .ok version) :
    ∃ c', (writeVersionFile path known).perform c = (.ok (), c') ∧ c'.host.files = written := by
  let without : Console := { c with host := { c.host with files := removed } }
  let replaced : Console := { c with host := { c.host with files := written } }
  have hremoved : (Routine.remove path).perform c = (.ok (), without) := perform_changeFiles hremove
  have hwritten : (Routine.write path (versionText known)).perform without = (.ok (), replaced) :=
    perform_changeFiles (c := without) hwrite
  have hfound : (Routine.ofExcept (known.item "version")).perform replaced = (.ok version, replaced) := by
    rw [Routine.perform_ofExcept, hversion]
  let line := "set " ++ path ++ " to '" ++ version.plain ++ "'"
  refine ⟨{ replaced with output := replaced.output ++ line ++ "\n" }, ?_, rfl⟩
  rw [writeVersionFile, Routine.perform_bind_ok hremoved, Routine.perform_bind_ok hwritten, Routine.perform_bind_ok hfound]
  rfl

theorem perform_readVersionFile {text : String} {json : List Char} {v : Value} (hread : c.host.files.read path = .ok text)
    (hembedded : embedded? text.toList = some json) (hparse : Value.parse? (String.ofList json) = some v) :
    (readVersionFile path).perform c = (.ok v, c) := by
  have hfiles : Routine.files.perform c = (.ok c.host.files, c) := rfl
  rw [readVersionFile, Routine.perform_bind_ok hfiles, hread]
  simp only [hembedded, hparse]
  rfl

theorem toList_versionText (known : Value) : (versionText known).toList =
    versionHead.toList ++ (openingMark.toList ++ ((known.renderIndented 0 ++ "\n").toList ++
      (closingMark.toList ++ versionTail.toList))) := by
  simp only [versionText, String.toList_append, List.append_assoc]

theorem return_notMem_versionText {entries : List (String × Value)} (hsimple : ∀ e ∈ entries, e.2.Simple) :
    '\r' ∉ (versionText (.dict entries)).toList := by
  have hhead : '\r' ∉ versionHead.toList := by
    rw [versionHead, Text.toList_unlines]
    decide +kernel
  have htail : '\r' ∉ versionTail.toList := by
    rw [versionTail, Text.toList_unlines]
    decide +kernel
  have hopening : '\r' ∉ openingMark.toList := by decide
  have hclosing : '\r' ∉ closingMark.toList := by decide
  rw [toList_versionText]
  simp [hhead, hopening, hclosing, htail, Value.return_notMem_renderIndented hsimple]

/-- **A version file that was replaced says what is known**: the same entries, in another order. The texts among them may
hold anything, also quotes and the marks of the file. -/
theorem version_file_reads_back {entries : Table String Value} (hfiles : c.host.files.Sound)
    (hpath : c.host.files.isFile path = true) (hkeys : entries.keys.Nodup) (hversion : "version" ∈ entries.keys)
    (hsimple : ∀ e ∈ entries, e.2.Simple) :
    ∃ c' known, (writeVersionFile path (.dict entries)).perform c = (.ok (), c') ∧
      (readVersionFile path).perform c' = (.ok (.dict known), c') ∧ known.Perm entries := by
  obtain ⟨removed, written, hremove, hwrite, hread⟩ := hfiles.exists_replace hpath (return_notMem_versionText hsimple)
  obtain ⟨version, hfound⟩ : ∃ version, (Value.dict entries).item "version" = .ok version := by
    obtain ⟨version, hget⟩ := Option.isSome_iff_exists.mp ((Table.mem_keys_iff _ _).mp hversion)
    exact ⟨version, by simp only [Value.item, hget]⟩
  obtain ⟨c', hperform, hwritten⟩ := perform_writeVersionFile hremove hwrite hfound
  have hembedded : embedded? (versionText (.dict entries)).toList =
      some ((Value.dict entries).renderIndented 0 ++ "\n").toList := by
    rw [toList_versionText, embedded?_marked]
  have hparse : Value.parse? (String.ofList ((Value.dict entries).renderIndented 0 ++ "\n").toList) =
      some (.dict (Value.sortEntries entries)) := by
    rw [String.ofList_toList, Value.parse?_renderIndented hkeys hsimple]
  exact ⟨c', Value.sortEntries entries, hperform, perform_readVersionFile (hwritten ▸ hread) hembedded hparse,
    Value.sortEntries_perm entries⟩

/-- A file that is to be replaced, among others. -/
def oldVersionFile : Console :=
  { host := { files := {
      files := [("/work/_version.py", .text "old\n"), ("/work/setup.py", .text "")]
      current := "/work" } } }

/-- What is known, with quotes, a percent sign and both marks in its texts. -/
def markedEntries : Table String Value :=
  [("version", .str "\"1'%s"), ("dirty", .bool true), (openingMark, .str closingMark), ("error", .null)]

theorem sound_oldVersionFile : oldVersionFile.host.files.Sound where
  current_isAbsolute := rfl
  root_notMem := by decide
  file_not_within := by decide
  directory_not_within := by decide

theorem simple_markedEntries : ∀ e ∈ markedEntries, e.2.Simple := by
  intro e he
  simp only [markedEntries, List.mem_cons, List.not_mem_nil, or_false] at he
  rcases he with rfl | rfl | rfl | rfl
  · exact .str _
  · exact .bool _
  · exact .str _
  · exact .null

theorem version_file_reads_back_marks : ∃ c' known,
    (writeVersionFile "_version.py" (.dict markedEntries)).perform oldVersionFile = (.ok (), c') ∧
      (readVersionFile "_version.py").perform c' = (.ok (.dict known), c') ∧ known.Perm markedEntries :=
  version_file_reads_back sound_oldVersionFile (by decide) (by decide) (by decide) simple_markedEntries

end Version

end EditorService
