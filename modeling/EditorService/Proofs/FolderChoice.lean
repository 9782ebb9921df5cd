import EditorService.Proofs.Layout

/-!
# Which folder a document belongs to

A folder **holds** a document when the parts of its path are the first parts of the document's path. The rule that one
expects is simple (`Innermost`): of the folders that hold a document the one with the most parts is its folder, and a
document that no folder holds has none.

The service does not look for folders that hold a document. It counts the places in which two paths agree, wherever
these are, and takes the first folder with the highest count (`firstBest_bestFolder`). For a folder that holds the
document the count is the number of its parts. A folder beside it can reach the same count by parts that come again
behind a difference, and a folder elsewhere always agrees in the scheme.

**The law** (`bestFolder_innermost_iff_clear`): the service follows the rule, in whatever order the folders were
registered, exactly when the choice is **clear** (`Clear`). Then each folder that agrees without holding the document
agrees in fewer places than some folder that holds it has parts. A folder without any parts must also leave the choice
to one with parts, because the count of the former is zero.
-/

namespace EditorService

namespace Workspace

/-! ## Agreement and holding -/

/-- **A folder holds a document**: its parts are the first parts of the document. -/
def Holds (document folder : String) : Prop := Path.parts folder.toList <+: Path.parts document.toList

instance (document folder : String) : Decidable (Holds document folder) :=
  inferInstanceAs (Decidable (Path.parts folder.toList <+: Path.parts document.toList))

/-- How many parts a folder has. -/
def depth (folder : String) : Nat := (Path.parts folder.toList).length

/-- The count that the service compares, with zero for a folder that it passes over. -/
def fitness (document folder : String) : Nat :=
  (fit? (Path.parts document.toList) (Path.parts folder.toList)).getD 0

theorem agreement_le_length (folder document : List (List Char)) : agreement folder document ≤ folder.length := by
  fun_induction agreement folder document with
  | case1 a as b bs ih =>
    rw [List.length_cons]
    split <;> omega
  | case2 => exact Nat.zero_le _

/-- A folder that agrees in all its parts holds the document. -/
theorem agreement_eq_length_iff (folder document : List (List Char)) :
    agreement folder document = folder.length ↔ folder <+: document := by
  fun_induction agreement folder document with
  | case1 a as b bs ih =>
    rw [List.cons_prefix_cons, List.length_cons, ← ih]
    have hle := agreement_le_length as bs
    by_cases h : a = b
    · simp only [h, beq_self_eq_true, if_true, true_and]
      omega
    · simp only [beq_iff_eq, h, if_false, false_and, iff_false]
      omega
  | case2 folder document hnot =>
    cases folder with
    | nil => simp
    | cons a as =>
      cases document with
      | nil => simp
      | cons b bs => exact absurd rfl (hnot a as b bs rfl)

section

variable {document folder : String}

theorem fit?_eq_some_iff {n : Nat} :
    fit? (Path.parts document.toList) (Path.parts folder.toList) = some n ↔ fitness document folder = n ∧ 0 < n := by
  have hpos : ∀ m, fit? (Path.parts document.toList) (Path.parts folder.toList) = some m → 0 < m := by
    intro m hm
    rw [fit?] at hm
    split at hm
    · exact nomatch hm
    · dsimp only at hm
      split at hm
      · exact nomatch hm
      · next hne =>
        cases hm
        exact Nat.pos_of_ne_zero fun h => hne (beq_iff_eq.mpr h)
  rw [fitness]
  constructor
  · intro h
    exact ⟨by rw [h]; rfl, hpos n h⟩
  · rintro ⟨heq, hn⟩
    cases h : fit? (Path.parts document.toList) (Path.parts folder.toList) with
    | none =>
      rw [h] at heq
      exact absurd hn (by rw [← heq]; exact Nat.lt_irrefl 0)
    | some m =>
      rw [h] at heq
      exact congrArg some heq

theorem fit?_eq_none_iff :
    fit? (Path.parts document.toList) (Path.parts folder.toList) = none ↔ fitness document folder = 0 := by
  constructor
  · intro h
    rw [fitness, h]
    rfl
  · intro h
    refine Option.eq_none_iff_forall_ne_some.mpr fun n hn => ?_
    obtain ⟨heq, hpos⟩ := fit?_eq_some_iff.mp hn
    exact absurd hpos (by rw [← heq, h]; exact Nat.lt_irrefl 0)

/-- The count of a folder that holds the document is the number of its parts. -/
theorem Holds.fitness_eq (h : Holds document folder) : fitness document folder = depth folder := by
  have hagree := (agreement_eq_length_iff _ _).mpr h
  have hlength : ¬ (Path.parts document.toList).length < (Path.parts folder.toList).length :=
    Nat.not_lt.mpr h.length_le
  rw [fitness, fit?, if_neg hlength, hagree, depth]
  dsimp only
  split
  · next hzero => exact (beq_iff_eq.mp hzero).symm
  · rfl

end

/-! ## The first of the best -/

/-- **The first of the best**: a folder that fits, where all folders before it fit less well and none behind it fits
better. Without one, no folder fits. -/
def FirstBest (document : String) (folders : List String) : Option (Nat × String) → Prop
  | none => ∀ g ∈ folders, fitness document g = 0
  | some (n, f) => 0 < n ∧ fitness document f = n ∧ ∃ before after, folders = before ++ f :: after ∧
      (∀ g ∈ before, fitness document g < n) ∧ ∀ g ∈ after, fitness document g ≤ n

/-- One more folder. -/
theorem FirstBest.better {document : String} {seen : List String} {best : Option (Nat × String)}
    (h : FirstBest document seen best) (folder : String) :
    FirstBest document (seen ++ [folder]) (better (Path.parts document.toList) best folder) := by
  unfold Workspace.better
  cases hfit : fit? (Path.parts document.toList) (Path.parts folder.toList) with
  | none =>
    have hzero := fit?_eq_none_iff.mp hfit
    cases best with
    | none =>
      intro g hg
      rcases List.mem_append.mp hg with hold | hnew
      · exact h g hold
      · rw [List.mem_singleton.mp hnew, hzero]
    | some found =>
      obtain ⟨n, f⟩ := found
      obtain ⟨hpos, hn, before, after, rfl, hbefore, hafter⟩ := h
      refine ⟨hpos, hn, before, after ++ [folder], by simp, hbefore, fun g hg => ?_⟩
      rcases List.mem_append.mp hg with hold | hnew
      · exact hafter g hold
      · rw [List.mem_singleton.mp hnew, hzero]
        exact Nat.zero_le n
  | some m =>
    obtain ⟨hm, hmpos⟩ := fit?_eq_some_iff.mp hfit
    cases best with
    | none =>
      refine ⟨hmpos, hm, seen, [], rfl, fun g hg => ?_, fun g hg => nomatch hg⟩
      rw [h g hg]
      exact hmpos
    | some found =>
      obtain ⟨n, f⟩ := found
      obtain ⟨hpos, hn, before, after, rfl, hbefore, hafter⟩ := h
      show FirstBest document _ (if n < m then some (m, folder) else some (n, f))
      by_cases hlt : n < m
      · rw [if_pos hlt]
        refine ⟨hmpos, hm, before ++ f :: after, [], rfl, fun g hg => ?_, fun g hg => nomatch hg⟩
        rcases List.mem_append.mp hg with hfront | hback
        · exact Nat.lt_trans (hbefore g hfront) hlt
        · rcases List.mem_cons.mp hback with rfl | hback
          · rw [hn]
            exact hlt
          · exact Nat.lt_of_le_of_lt (hafter g hback) hlt
      · rw [if_neg hlt]
        refine ⟨hpos, hn, before, after ++ [folder], by simp, hbefore, fun g hg => ?_⟩
        rcases List.mem_append.mp hg with hold | hnew
        · exact hafter g hold
        · rw [List.mem_singleton.mp hnew, hm]
          exact Nat.not_lt.mp hlt

theorem FirstBest.foldl {document : String} (rest : List String) {seen : List String}
    {best : Option (Nat × String)} (h : FirstBest document seen best) :
    FirstBest document (seen ++ rest) (rest.foldl (Workspace.better (Path.parts document.toList)) best) := by
  induction rest generalizing seen best with
  | nil =>
    rw [List.append_nil]
    exact h
  | cons folder rest ih =>
    have hnext := ih (h.better folder)
    rwa [List.append_assoc, List.singleton_append] at hnext

/-- **The service takes the first of the best.** -/
theorem firstBest_bestFolder (document : String) (folders : List String) :
    ∃ best, bestFolder document folders = best.map (·.2) ∧ FirstBest document folders best := by
  have hstart : FirstBest document [] none := fun _ hg => nomatch hg
  exact ⟨_, rfl, hstart.foldl folders⟩

theorem FirstBest.mem {document : String} {folders : List String} {n : Nat} {f : String}
    (h : FirstBest document folders (some (n, f))) : f ∈ folders := by
  obtain ⟨-, -, before, after, rfl, -⟩ := h
  exact List.mem_append_right before List.mem_cons_self

theorem FirstBest.fitness_le {document : String} {folders : List String} {n : Nat} {f g : String}
    (h : FirstBest document folders (some (n, f))) (hg : g ∈ folders) : fitness document g ≤ n := by
  obtain ⟨-, hn, before, after, rfl, hbefore, hafter⟩ := h
  rcases List.mem_append.mp hg with hfront | hback
  · exact Nat.le_of_lt (hbefore g hfront)
  · rcases List.mem_cons.mp hback with rfl | hback
    · exact Nat.le_of_eq hn
    · exact hafter g hback

/-- Of two folders that fit equally well the first one is not passed over for the other. -/
theorem FirstBest.fitness_lt_of_head {document : String} {folders : List String} {n : Nat} {f g : String}
    (h : FirstBest document (g :: folders) (some (n, f))) (hne : f ≠ g) : fitness document g < n := by
  obtain ⟨-, -, before, after, hsplit, hbefore, -⟩ := h
  cases before with
  | nil => exact absurd (List.cons.inj hsplit).1.symm hne
  | cons b before =>
    rw [(List.cons.inj hsplit).1]
    exact hbefore b List.mem_cons_self

/-! ## The rule -/

/-- **The rule**: the folder with the most parts among those that hold the document, or none when no folder does. -/
def Innermost (document : String) (folders : List String) : Option String → Prop
  | some f => f ∈ folders ∧ Holds document f ∧ ∀ g ∈ folders, Holds document g → depth g ≤ depth f
  | none => ∀ g ∈ folders, ¬ Holds document g

/-- The count of a folder says nothing about whether it holds the document: it agrees and does not hold it, or it holds
it without any parts. -/
def Misleading (document folder : String) : Prop :=
  if Holds document folder then depth folder = 0 else 0 < fitness document folder

instance (document folder : String) : Decidable (Misleading document folder) := by
  unfold Misleading
  infer_instance

/-- **The choice is clear**: a folder with a misleading count is outdone by one that holds the document. -/
def Clear (document : String) (folders : List String) : Prop :=
  ∀ g ∈ folders, Misleading document g → ∃ f ∈ folders, Holds document f ∧ fitness document g < depth f

instance (document : String) (folders : List String) : Decidable (Clear document folders) := by
  unfold Clear
  infer_instance

section

variable {document : String} {folders order : List String}

theorem Clear.perm (h : Clear document folders) (hperm : order.Perm folders) : Clear document order := by
  intro g hg hmisleading
  obtain ⟨f, hf, hrest⟩ := h g (hperm.mem_iff.mp hg) hmisleading
  exact ⟨f, hperm.mem_iff.mpr hf, hrest⟩

/-- A clear choice follows the rule. -/
theorem innermost_of_clear (h : Clear document folders) : Innermost document folders (bestFolder document folders) := by
  obtain ⟨best, hbest, hfirst⟩ := firstBest_bestFolder document folders
  rw [hbest]
  rcases best with _ | ⟨n, f⟩
  · intro g hg hholds
    have hzero : depth g = 0 := hholds.fitness_eq.symm.trans (hfirst g hg)
    obtain ⟨f, hf, hf_holds, hlt⟩ := h g hg ((if_pos hholds).mpr hzero)
    rw [← hf_holds.fitness_eq, hfirst f hf] at hlt
    exact Nat.not_lt_zero _ hlt
  · have ⟨hpos, hn, _⟩ := hfirst
    have hholds : Holds document f := by
      refine Decidable.of_not_not fun hnot => ?_
      obtain ⟨f', hf', hholds', hlt⟩ := h f hfirst.mem ((if_neg hnot).mpr (hn ▸ hpos))
      rw [← hholds'.fitness_eq, hn] at hlt
      exact Nat.not_lt.mpr (hfirst.fitness_le hf') hlt
    refine ⟨hfirst.mem, hholds, fun g hg hg_holds => ?_⟩
    rw [← hg_holds.fitness_eq, ← hholds.fitness_eq, hn]
    exact hfirst.fitness_le hg

/-- A choice that follows the rule in every order is clear. A misleading folder is put first, so that nothing but a
higher count can take the document from it. -/
theorem clear_of_innermost (h : ∀ order : List String, order.Perm folders →
    Innermost document order (bestFolder document order)) : Clear document folders := by
  intro g hg hmisleading
  have hperm : (g :: folders.erase g).Perm folders := (List.perm_cons_erase hg).symm
  have hrule := h _ hperm
  obtain ⟨best, hbest, hfirst⟩ := firstBest_bestFolder document (g :: folders.erase g)
  rw [hbest] at hrule
  rcases best with _ | ⟨n, f⟩
  · have hnot := hrule g List.mem_cons_self
    rw [Misleading, if_neg hnot, hfirst g List.mem_cons_self] at hmisleading
    exact absurd hmisleading (Nat.lt_irrefl 0)
  · have ⟨hpos, hn, _⟩ := hfirst
    obtain ⟨hf, hholds, -⟩ := hrule
    refine ⟨f, hperm.mem_iff.mp hf, hholds, ?_⟩
    rw [← hholds.fitness_eq, hn]
    by_cases hfg : f = g
    · rw [Misleading, ← hfg, if_pos hholds, ← hholds.fitness_eq, hn] at hmisleading
      exact absurd hpos (by rw [hmisleading]; exact Nat.lt_irrefl 0)
    · exact hfirst.fitness_lt_of_head hfg

/-- The rule leaves one answer, up to folders with the same parts. -/
theorem Innermost.unique {a b : Option String} (ha : Innermost document folders a) (hb : Innermost document folders b) :
    a.map (fun f => Path.parts f.toList) = b.map (fun f => Path.parts f.toList) := by
  cases a with
  | none =>
    cases b with
    | none => rfl
    | some g => exact absurd hb.2.1 (ha g hb.1)
  | some f =>
    cases b with
    | none => exact absurd ha.2.1 (hb f ha.1)
    | some g =>
      have hlength : depth f = depth g := Nat.le_antisymm (hb.2.2 f ha.1 ha.2.1) (ha.2.2 g hb.1 hb.2.1)
      have hfront : Path.parts f.toList <+: Path.parts g.toList :=
        List.prefix_of_prefix_length_le ha.2.1 hb.2.1 (Nat.le_of_eq hlength)
      exact congrArg some (hfront.eq_of_length hlength)

theorem Innermost.perm {answer : Option String} (h : Innermost document order answer) (hperm : order.Perm folders) :
    Innermost document folders answer := by
  cases answer with
  | none => exact fun g hg => h g (hperm.mem_iff.mpr hg)
  | some f =>
    exact ⟨hperm.mem_iff.mp h.1, h.2.1, fun g hg => h.2.2 g (hperm.mem_iff.mpr hg)⟩

end

/-- **The choice of a folder.** The service follows the rule for every order of registration exactly when the choice is
clear. A clear choice does not depend on the order of folders with different parts, and a document that no folder holds
then belongs to the root. -/
theorem bestFolder_innermost_iff_clear (document : String) (folders : List String) :
    ((∀ order : List String, order.Perm folders → Innermost document order (bestFolder document order)) ↔
      Clear document folders) ∧
    (Clear document folders →
      ((∀ f ∈ folders, ∀ g ∈ folders, Path.parts f.toList = Path.parts g.toList → f = g) →
        ∀ order : List String, order.Perm folders → bestFolder document order = bestFolder document folders) ∧
      ∀ s : Server, s.folders.keys = folders → (∀ g ∈ folders, ¬ Holds document g) →
        s.workspaceIdOf? document = s.root) := by
  refine ⟨⟨clear_of_innermost, fun hclear order hperm => innermost_of_clear (hclear.perm hperm)⟩, fun hclear => ⟨?_, ?_⟩⟩
  · intro hdistinct order hperm
    have hrule := innermost_of_clear hclear
    have hrule' := (innermost_of_clear (hclear.perm hperm)).perm hperm
    have hsame := hrule'.unique hrule
    cases hfound : bestFolder document folders with
    | none =>
      rw [hfound, Option.map_none] at hsame
      exact Option.map_eq_none_iff.mp hsame
    | some f =>
      rw [hfound] at hrule
      rw [hfound, Option.map_some] at hsame
      obtain ⟨g, hg, hparts⟩ := Option.map_eq_some_iff.mp hsame
      rw [hg] at hrule'
      rw [hg, hdistinct g hrule'.1 f hrule.1 hparts]
  · rintro s rfl hnone
    have hrule := innermost_of_clear hclear
    rw [Server.workspaceIdOf?]
    cases hfound : bestFolder document s.folders.keys with
    | none => rfl
    | some f =>
      rw [hfound] at hrule
      exact absurd hrule.2.1 (hnone f hrule.1)

/-- A document in a folder, next to a folder that agrees with it in the scheme and in a part behind a difference: the
order does not matter. A document in no folder at all belongs to the root when its scheme is its own. With the scheme of
the folder it does not. -/
theorem bestFolder_innermost_iff_clear_three_folders :
    let folders := ["file:///ws", "file:///other/sub", "file:///ws/sub"]
    let s : Server := { folders := [("file:///ws", 1)], root := some 0 }
    bestFolder "file:///ws/sub/a.py" folders.reverse = bestFolder "file:///ws/sub/a.py" folders ∧
      s.workspaceIdOf? "untitled:b.py" = some 0 ∧ s.workspaceIdOf? "file:///other/b.py" = some 1 ∧
      ¬ ∀ order : List String, order.Perm ["file:///ws"] →
        Innermost "file:///other/b.py" order (bestFolder "file:///other/b.py" order) := by
  intro folders s
  have hnested := (bestFolder_innermost_iff_clear "file:///ws/sub/a.py" folders).2 (by decide +kernel)
  have houtside := (bestFolder_innermost_iff_clear "untitled:b.py" ["file:///ws"]).2 (by decide +kernel)
  refine ⟨hnested.1 (by decide +kernel) _ (List.reverse_perm folders), ?_, by decide +kernel, fun h => ?_⟩
  · exact houtside.2 s rfl (by decide +kernel)
  · have hclear := (bestFolder_innermost_iff_clear "file:///other/b.py" ["file:///ws"]).1.mp h
    revert hclear
    decide +kernel

end Workspace

end EditorService
