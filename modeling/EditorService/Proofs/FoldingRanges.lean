import EditorService.Proofs.BlankLines
import EditorService.Proofs.Jobs
import EditorService.Proofs.TreeVisits

/-!
# Folding ranges

The folds of a program come from two sources. A walk through its tree gives folds of use only: a node that does not span
lines gives none. At the first node that stands for an error the walk ends, and folds by indentation are merged into what
was found. There nothing looks whether a fold spans lines, or whether it starts on a line at all.

* **The walk** (`proper_of_foldlM`): what it gathers before the first error in order is of use.
* **Merging** (`mem_merge`): all folds found by indentation stay, and of those found before the ones that start elsewhere.
* **Order** (`pairwise_sorted`): where no line starts two folds, sorting gives strictly rising starts.
* **Lines** (`bareLines_textFrom`): what is read for indentation are the program's own lines, with empty ones in the place
  of those before the error.

**The law** (`folding_valid_iff_well_spaced`): ranges are always in order; they are valid exactly if there is no error or
the lines from the first one on are well spaced, and in a neat document they always are.
-/

namespace EditorService.Text

/-- Lines without breaks, each with a line feed behind it, are the lines of the text they make up. -/
theorem bareLines_join {ls : List (List Char)} (hne : ls ≠ []) (h : ∀ line ∈ ls, IsBare line) :
    bareLines (join ['\n'] ls ++ ['\n']) = ls := by
  induction ls with
  | nil => exact absurd rfl hne
  | cons line rest ih =>
    have hline := h line List.mem_cons_self
    have hdrop : dropBreak (line ++ ['\n']) = line := dropBreak_concat hline (by decide)
    cases rest with
    | nil =>
      have hlines : lines (line ++ ['\n']) = [line ++ ['\n']] := lines_bare_append hline []
      simp only [join, bareLines, hlines, List.map_cons, List.map_nil, hdrop]
    | cons next more =>
      have hrest := ih (List.cons_ne_nil _ _) fun l hl => h l (List.mem_cons_of_mem line hl)
      have hjoin : join ['\n'] (line :: next :: more) ++ ['\n'] =
          line ++ '\n' :: (join ['\n'] (next :: more) ++ ['\n']) := by simp [join]
      rw [hjoin]
      unfold bareLines at hrest ⊢
      rw [lines_bare_append hline, List.map_cons, hrest, hdrop]

end EditorService.Text

namespace EditorService.Folding

open EditorService.Tool (Tree)

/-! ## The walk through the tree -/

mutual

/-- **A tree whose lines count from one.** -/
def Placed : Tree → Prop
  | .leaf _ _ line _ => 1 ≤ line
  | .node _ _ children => AllPlaced children

/-- All trees of a list have lines that count from one. -/
def AllPlaced : List Tree → Prop
  | [] => True
  | t :: ts => Placed t ∧ AllPlaced ts

end

mutual

/-- A tree starts where its first leaf does. -/
theorem Placed.one_le : ∀ {t : Tree} {line : Int}, Placed t → t.startLine? = some line → 1 ≤ line
  | .leaf _ _ own _, line, h, hline => by
    simp only [Tree.startLine?, Option.some.injEq] at hline
    simp only [Placed] at h
    omega
  | .node _ _ children, line, h, hline => by
    simp only [Placed] at h
    simp only [Tree.startLine?] at hline
    exact AllPlaced.one_le h hline

theorem AllPlaced.one_le : ∀ {ts : List Tree} {line : Int}, AllPlaced ts → Tree.startLineOf? ts = some line → 1 ≤ line
  | [], _, _, hline => by simp [Tree.startLineOf?] at hline
  | t :: _, line, h, hline => by
    simp only [AllPlaced] at h
    simp only [Tree.startLineOf?] at hline
    exact Placed.one_le h.1 hline

end

theorem startOf_eq_ok {t : Tree} {line : Int} : startOf t = .ok line ↔ t.startLine? = some line := by
  unfold startOf
  cases t.startLine? <;> simp

/-- **Folds of use**: each starts on a line and ends behind it, and no line starts two. -/
structure Proper (folds : Folds) : Prop where
  keys : folds.keys.Nodup
  useful : ∀ f ∈ folds, 1 ≤ f.1 ∧ f.1 < f.2

theorem Proper.addFold {folds : Folds} (h : Proper folds) {start : Int} (hstart : 1 ≤ start) (stop : Int) :
    Proper (addFold folds start stop) := by
  unfold Folding.addFold
  split
  · next hlt =>
    refine ⟨Table.nodup_put h.keys _ _, fun f hf => ?_⟩
    rcases Table.mem_put hf with rfl | hf
    · exact ⟨hstart, by simp only; omega⟩
    · exact h.useful f hf
  · exact h

/-- A fold starts where its node does. -/
theorem span_start {p : Pending} {ahead : List Pending} {start stop : Int} (h : span p ahead = .ok (start, stop)) :
    startOf p.tree = .ok start := by
  unfold span at h
  obtain ⟨own, hown, h⟩ := Fault.bind_eq_ok.mp h
  obtain ⟨last, -, h⟩ := Fault.bind_eq_ok.mp h
  suffices hstart : own = start by rw [hown, hstart]
  split at h
  · obtain ⟨_, -, h⟩ := Fault.bind_eq_ok.mp h
    exact congrArg Prod.fst (Except.ok.inj h)
  · split at h
    · split at h
      · obtain ⟨_, -, h⟩ := Fault.bind_eq_ok.mp h
        exact congrArg Prod.fst (Except.ok.inj h)
      · exact congrArg Prod.fst (Except.ok.inj h)
    · exact congrArg Prod.fst (Except.ok.inj h)

theorem Proper.addNode {folds folds' : Folds} (h : Proper folds) {p : Pending} (hp : Placed p.tree)
    {ahead : List Pending} (hadd : addNode folds p ahead = .ok folds') : Proper folds' := by
  unfold Folding.addNode at hadd
  split at hadd
  · cases hadd
    exact h
  · obtain ⟨⟨start, stop⟩, hspan, hadd⟩ := Fault.bind_eq_ok.mp hadd
    cases hadd
    exact h.addFold (hp.one_le (startOf_eq_ok.mp (span_start hspan))) stop

mutual

theorem Placed.of_mem_preorder : ∀ {t u : Tree}, Placed t → u ∈ preorder t → Placed u
  | .leaf cls value line column, u, h, hu => by
    simp only [preorder, List.mem_singleton] at hu
    exact hu ▸ h
  | .node cls type children, u, h, hu => by
    simp only [preorder, List.mem_cons] at hu
    rcases hu with rfl | hu
    · exact h
    · simp only [Placed] at h
      exact AllPlaced.of_mem_preorders h hu

theorem AllPlaced.of_mem_preorders : ∀ {ts : List Tree} {u : Tree}, AllPlaced ts → u ∈ preorders ts → Placed u
  | [], u, _, hu => by simp [preorders] at hu
  | t :: ts, u, h, hu => by
    simp only [AllPlaced] at h
    simp only [preorders, List.mem_append] at hu
    rcases hu with hu | hu
    · exact Placed.of_mem_preorder h.1 hu
    · exact AllPlaced.of_mem_preorders h.2 hu

end

/-- **What the walk gathers is of use.** -/
theorem proper_of_foldlM {tree : Tree} (hplaced : Placed tree) {kept : Folds}
    (h : (upToError (visits none tree [])).foldlM consider [] = .ok kept) : Proper kept := by
  have hempty : Proper ([] : Folds) := ⟨List.nodup_nil, fun _ hf => absurd hf List.not_mem_nil⟩
  refine invariant_of_foldlM (fun v hv folds next hfolds hnext => ?_) hempty h
  have hmem : v ∈ visits none tree [] := (List.takeWhile_sublist _).subset hv
  have hnode : v.node.tree ∈ preorder tree := tree_visits none tree [] ▸ List.mem_map_of_mem hmem
  unfold consider at hnext
  split at hnext
  · cases hnext
    exact hfolds
  · exact hfolds.addNode (hplaced.of_mem_preorder hnode) hnext

/-! ## Merging and sorting -/

/-- Where a fold that was found before ends after merging. -/
def mergedStop (right : Folds) (f : Int × Int) : Int :=
  match Table.get? right f.1 with
  | some stop => max stop f.1
  | none => f.2

theorem merge_eq (left right : Folds) :
    merge left right = Table.putAll (left.map fun f => (f.1, mergedStop right f))
      (right.filter fun r => !Table.has left r.1) := by
  unfold merge
  extract_lets kept
  have hkept : kept = left.map fun f => (f.1, mergedStop right f) := by
    apply List.map_congr_left
    intro f _
    unfold mergedStop
    cases h : Table.get? right f.1 <;> simp [h]
  rw [hkept]

/-- **What a lookup sees after merging.** A fold found by indentation counts, and where a fold was found before it is
made to end no earlier than it starts. -/
theorem get?_merge {left right : Folds} (hright : right.keys.Nodup) (k : Int) :
    Table.get? (merge left right) k =
      match Table.get? right k with
      | some stop => some (if Table.has left k then max stop k else stop)
      | none => Table.get? left k := by
  have hkept : ∀ folds : Folds, Table.get? (folds.map fun f => (f.1, mergedStop right f)) k =
      (Table.get? folds k).map fun stop => mergedStop right (k, stop) := by
    intro folds
    induction folds with
    | nil => rfl
    | cons f rest ih =>
      by_cases hf : f.1 = k
      · simp [Table.get?, ← hf]
      · simpa [Table.get?, hf] using ih
  have hadded : Table.get? (right.filter fun r => !Table.has left r.1).reverse k =
      if Table.has left k then none else Table.get? right k := by
    rw [Table.get?_reverse (hright.sublist (List.filter_sublist.map Prod.fst)),
      Table.get?_filter right (fun key => !Table.has left key)]
    cases Table.has left k <;> rfl
  rw [merge_eq, Table.get?_putAll, hadded, hkept]
  cases hleft : Table.get? left k with
  | none => cases hfound : Table.get? right k <;> simp [Table.has, hleft]
  | some stop => cases hfound : Table.get? right k <;> simp [Table.has, hleft, mergedStop, hfound]

theorem nodup_merge {left : Folds} (hleft : left.keys.Nodup) (right : Folds) : (merge left right).keys.Nodup := by
  rw [merge_eq]
  apply Table.nodup_putAll
  simpa [Table.keys, Function.comp_def] using hleft

/-- **What merging gives**: all folds found by indentation, and those found before that start on other lines. -/
theorem mem_merge {left right : Folds} (hleft : left.keys.Nodup) (hright : right.keys.Nodup)
    (hstop : ∀ f ∈ right, f.1 ≤ f.2) {f : Int × Int} :
    f ∈ merge left right ↔ f ∈ right ∨ (f ∈ left ∧ f.1 ∉ right.keys) := by
  rw [Table.mem_iff_get? (nodup_merge hleft right), get?_merge hright, Table.mem_keys_iff]
  cases hfound : Table.get? right f.1 with
  | none =>
    have hnot : f ∉ right := fun hf => by simp [Table.get?_of_mem hright hf] at hfound
    simp [hnot, Table.mem_iff_get? hleft]
  | some stop =>
    -- No fold found by indentation ends in front of its start.
    have hle : f.1 ≤ stop := hstop _ (Table.mem_of_get? hfound)
    have hmax : (if Table.has left f.1 then max stop f.1 else stop) = stop := by
      split
      · omega
      · rfl
    simp [hmax, Table.mem_iff_get? hright, hfound]

theorem perm_insertFold (f : Int × Int) (folds : Folds) : (insertFold f folds).Perm (f :: folds) := by
  induction folds with
  | nil => exact .refl _
  | cons other rest ih =>
    unfold insertFold
    split
    · exact .refl _
    · exact (ih.cons other).trans (.swap f other rest)

theorem perm_sorted (folds : Folds) : (sorted folds).Perm folds := by
  unfold sorted
  induction folds with
  | nil => exact .refl _
  | cons f rest ih => exact (perm_insertFold f _).trans (ih.cons f)

theorem pairwise_insertFold {f : Int × Int} {folds : Folds} (h : folds.Pairwise fun f g => f.1 ≤ g.1) :
    (insertFold f folds).Pairwise fun f g => f.1 ≤ g.1 := by
  induction folds with
  | nil => exact List.pairwise_singleton _ _
  | cons other rest ih =>
    obtain ⟨hother, hrest⟩ := List.pairwise_cons.mp h
    unfold insertFold
    split
    · next hbefore =>
      have hle : f.1 ≤ other.1 := by
        simp only [Bool.or_eq_true, decide_eq_true_eq, Bool.and_eq_true, beq_iff_eq] at hbefore
        omega
      refine List.pairwise_cons.mpr ⟨fun g hg => ?_, h⟩
      rcases List.mem_cons.mp hg with rfl | hg
      · exact hle
      · exact Int.le_trans hle (hother g hg)
    · next hbehind =>
      have hle : other.1 ≤ f.1 := by
        simp only [Bool.or_eq_true, decide_eq_true_eq, Bool.and_eq_true, beq_iff_eq] at hbehind
        omega
      refine List.pairwise_cons.mpr ⟨fun g hg => ?_, ih hrest⟩
      rcases List.mem_cons.mp ((perm_insertFold f rest).mem_iff.mp hg) with rfl | hg
      · exact hle
      · exact hother g hg

/-- **Folds in order**: where no line starts two, each starts behind the one before. -/
theorem pairwise_sorted {folds : Folds} (h : folds.keys.Nodup) : (sorted folds).Pairwise fun f g => f.1 < g.1 := by
  have hle : (sorted folds).Pairwise fun f g => f.1 ≤ g.1 := by
    unfold sorted
    clear h
    induction folds with
    | nil => exact .nil
    | cons f rest ih => exact pairwise_insertFold ih
  have hne : (sorted folds).Pairwise fun f g => f.1 ≠ g.1 := by
    have hkeys : ((sorted folds).map Prod.fst).Nodup := ((perm_sorted folds).map Prod.fst).nodup_iff.mpr h
    exact List.pairwise_map.mp hkeys
  exact (hle.and hne).imp fun h => Int.lt_iff_le_and_ne.mpr h

/-! ## The lines of the program from an error on -/

/-- **The lines of a program from a line on**, with empty lines in the place of those before. -/
def linesFrom (source : List Char) (line : Int) : List (List Char) :=
  List.replicate (line - 1).toNat [] ++ (Text.bareLines (source ++ ['\n'])).drop (line - 1).toNat

theorem bareLines_textFrom (source : List Char) {line : Int} (hline : 1 ≤ line) :
    Text.bareLines (textFrom (Text.bareLines (source ++ ['\n'])) (line - 1)) = linesFrom source line := by
  have honward : SignedIndex.onward (Text.bareLines (source ++ ['\n'])) (line - 1) =
      (Text.bareLines (source ++ ['\n'])).drop (line - 1).toNat := by
    have hplace : 0 ≤ line - 1 := by omega
    rw [SignedIndex.onward, SignedIndex.offset?, if_pos hplace]
    rfl
  unfold textFrom linesFrom
  rw [honward]
  apply Text.bareLines_join
  · intro hnil
    obtain ⟨hpadding, hrest⟩ := List.append_eq_nil_iff.mp hnil
    have hnone : (line - 1).toNat = 0 := by simpa using congrArg List.length hpadding
    rw [hnone, List.drop_zero] at hrest
    have hlines : Text.lines (source ++ ['\n']) = [] := List.map_eq_nil_iff.mp hrest
    have hflat := Text.flatten_lines (source ++ ['\n'])
    simp [hlines] at hflat
  · intro l hl
    rcases List.mem_append.mp hl with hl | hl
    · rw [List.eq_of_mem_replicate hl]
      intro c hc
      cases hc
    · exact Text.isBare_of_mem_bareLines (List.mem_of_mem_drop hl)

/-- A neat program stays neat when empty lines take the place of its first ones. -/
theorem Neat.linesFrom {source : List Char} (h : Neat (Text.bareLines (source ++ ['\n']))) (line : Int) :
    Neat (linesFrom source line) where
  flat := by
    intro l hl
    rcases List.mem_append.mp hl with hl | hl
    · rw [List.eq_of_mem_replicate hl]
      exact fun _ => Nat.zero_le 1
    · exact h.flat l (List.mem_of_mem_drop hl)
  first := by
    intro c rest hhead
    unfold Folding.linesFrom at hhead
    cases hcount : (line - 1).toNat with
    | zero =>
      rw [hcount] at hhead
      exact h.first c rest (by simpa using hhead)
    | succ n =>
      rw [hcount, List.replicate_succ] at hhead
      cases hhead

/-- Folds by indentation start on no line before zero, end no earlier than they start, and are of use exactly if the
lines are well spaced. -/
theorem byIndentation_eq_ok {text : List Char} {folds : Folds} (h : byIndentation text = .ok folds) :
    folds.keys.Nodup ∧ (∀ f ∈ folds, 0 ≤ f.1 ∧ f.1 ≤ f.2) ∧
      ((∀ f ∈ folds, 1 ≤ f.1 ∧ f.1 < f.2) ↔ WellSpaced (Text.bareLines text)) := by
  rw [byIndentation_eq] at h
  split at h
  · cases h
    have hnested := (nested_outlineOf (Text.bareLines text)).1.close 0
    refine ⟨Table.nodup_ofList _, fun f hf => ?_, useful_outlineOf_iff _⟩
    obtain ⟨hstart, hstop, -⟩ := hnested.stop f (Table.mem_of_mem_ofList hf)
    exact ⟨hstart, hstop⟩
  · cases h

/-- **The folds of a program**: they are in order, and all of them are of use unless there is an error and the lines from
there on are not well spaced. -/
theorem ofTree_eq_ok {source : List Char} {tree : Tree} {folds : List (Int × Int)} (hplaced : Placed tree)
    (h : ofTree source tree = .ok folds) :
    folds.Pairwise (fun f g => f.1 < g.1) ∧ (∀ f ∈ folds, 0 ≤ f.1 ∧ f.1 ≤ f.2) ∧
      ((∀ f ∈ folds, 1 ≤ f.1 ∧ f.1 < f.2) ↔
        ∀ e line, firstError? tree = some e → e.startLine? = some line → WellSpaced (linesFrom source line)) := by
  obtain ⟨result, hwalk, hsorted⟩ := Fault.bind_eq_ok.mp h
  cases hsorted
  rw [walk_root] at hwalk
  obtain ⟨kept, hgathered, hresult⟩ := Fault.bind_eq_ok.mp hwalk
  have hkept := proper_of_foldlM hplaced hgathered
  have hmem : ∀ f, f ∈ sorted result ↔ f ∈ result := fun f => (perm_sorted result).mem_iff
  simp only [hmem]
  cases herror : firstError? tree with
  | none =>
    rw [herror] at hresult
    cases hresult
    refine ⟨pairwise_sorted hkept.keys, fun f hf => ?_, fun _ _ _ => nofun, fun _ => hkept.useful⟩
    have := hkept.useful f hf
    omega
  | some e =>
    rw [herror] at hresult
    obtain ⟨start, hstart, hresult⟩ := Fault.bind_eq_ok.mp hresult
    obtain ⟨right, hright, hresult⟩ := Fault.bind_eq_ok.mp hresult
    cases hresult
    have hline := startOf_eq_ok.mp hstart
    have hone : 1 ≤ start := (hplaced.of_mem_preorder (List.mem_of_find?_eq_some herror)).one_le hline
    obtain ⟨hkeys, hbounds, huseful⟩ := byIndentation_eq_ok hright
    rw [bareLines_textFrom source hone] at huseful
    have hmerge : ∀ f, f ∈ merge kept right ↔ f ∈ right ∨ (f ∈ kept ∧ f.1 ∉ right.keys) :=
      fun f => mem_merge hkept.keys hkeys fun f hf => (hbounds f hf).2
    refine ⟨pairwise_sorted (nodup_merge hkept.keys right), fun f hf => ?_, fun hall e' line he hstart => ?_,
      fun hwell f hf => ?_⟩
    · rcases (hmerge f).mp hf with hf | ⟨hf, -⟩
      · exact hbounds f hf
      · have := hkept.useful f hf
        omega
    · cases he
      cases hline.symm.trans hstart
      exact huseful.mp fun f hf => hall f ((hmerge f).mpr (.inl hf))
    · rcases (hmerge f).mp hf with hf | ⟨hf, -⟩
      · exact huseful.mpr (hwell e start rfl hline) f hf
      · exact hkept.useful f hf

end EditorService.Folding

namespace EditorService.Feature

open EditorService.Tool (Tree)
open EditorService.Folding (Placed WellSpaced Neat firstError? linesFrom)

/-! ## Folding ranges that are published -/

/-- Reads a folding range: its first line, then its last. -/
def FoldingRange.ofValue (v : Value) : Except Fault FoldingRange := do
  let startLine ← (← v.item "startLine").number
  let endLine ← (← v.item "endLine").number
  return ⟨startLine, endLine⟩

theorem FoldingRange.ofValue_toValue (r : FoldingRange) : ofValue r.toValue = .ok r := rfl

/-- **Folding ranges are in order, and valid exactly if the lines from the first error on are well spaced.** Whenever a
document has folding ranges, the answer reads as them. Each starts behind the one before, none starts before line minus
one and none ends before its start. All of them start on a line of the document and end behind it if the tree has no error;
if it has one, they do exactly if the lines from there on are well spaced. In a neat document they always do. -/
theorem folding_valid_iff_well_spaced {v : DocumentView} {b : Bench} {answer : Value}
    (hplaced : Placed b.host.answers.parser.tree) (h : ((folding v).perform b).1 = .ok answer) :
    ∃ (source : String) (ranges : List FoldingRange), v.document.text b.host.files = .ok source ∧
      answer = .list (ranges.map FoldingRange.toValue) ∧
      (ranges.map FoldingRange.toValue).mapM FoldingRange.ofValue = .ok ranges ∧
      ranges.Pairwise (fun r s => r.startLine < s.startLine) ∧
      (∀ r ∈ ranges, -1 ≤ r.startLine ∧ r.startLine ≤ r.endLine) ∧
      ((∀ r ∈ ranges, 0 ≤ r.startLine ∧ r.startLine < r.endLine) ↔
        ∀ e line, firstError? b.host.answers.parser.tree = some e → e.startLine? = some line →
          WellSpaced (linesFrom source.toList line)) ∧
      (Neat (Text.bareLines (source.toList ++ ['\n'])) →
        ∀ r ∈ ranges, 0 ≤ r.startLine ∧ r.startLine < r.endLine) := by
  simp only [folding, Job.outcome_bind, Job.perform_text, Job.perform_answers, Job.perform_ofExcept,
    Fault.bind_eq_ok] at h
  obtain ⟨source, hsource, tree, htree, ranges, hranges, hanswer⟩ := h
  cases htree
  obtain ⟨folds, hfolds, hshown⟩ := Fault.bind_eq_ok.mp hranges
  cases hshown
  cases hanswer
  obtain ⟨hordered, hbounds, hvalid⟩ := Folding.ofTree_eq_ok hplaced hfolds
  have hshown : (∀ r ∈ folds.map (fun f => (⟨f.1 - 1, f.2 - 1⟩ : FoldingRange)),
      0 ≤ r.startLine ∧ r.startLine < r.endLine) ↔ ∀ f ∈ folds, 1 ≤ f.1 ∧ f.1 < f.2 := by
    simp only [List.forall_mem_map]
    constructor
    · intro hall f hf
      have := hall f hf
      omega
    · intro hall f hf
      have := hall f hf
      omega
  refine ⟨source, _, hsource, rfl, Fault.mapM_read_write FoldingRange.ofValue_toValue _, ?_, ?_, hshown.trans hvalid,
    fun hneat => ?_⟩
  · refine List.pairwise_map.mpr (hordered.imp fun hlt => ?_)
    show _ - 1 < _ - 1
    omega
  · simp only [List.forall_mem_map]
    intro f hf
    have := hbounds f hf
    omega
  · exact (hshown.trans hvalid).mpr fun e line _ _ => (hneat.linesFrom line).wellSpaced

/-- A program whose first line cannot be parsed, with some line below it and a last line that is not indented. -/
def brokenProgram (between : String) : DocumentView where
  document :=
    { uri := "file:///ws/a.py"
      path := "/ws/a.py"
      dottedName := "a"
      fileName := "a.py"
      source := some ("a b\n" ++ between ++ "\nc")
      home := 0 }
  config := none
  rootPath := "/ws"

/-- The tree of such a program: the parser gives up at the first name and goes on at the second. -/
def brokenTree (between : List Tree) : Tree :=
  .node .module "file_input" (
    .node .error "error_node" [.leaf .name "a" 1 0] ::
    .node .plain "simple_stmt" [.leaf .name "b" 1 2, .leaf .newline "\n" 1 3] ::
    between ++
    [.node .plain "simple_stmt" [.leaf .name "c" 3 0, .leaf .newline "\n" 3 1], .leaf .endMarker "" 4 0])

/-- A bench whose parser gives a tree. -/
def parsing (tree : Tree) : Bench := { host := { answers := { parser := { tree } } } }

/-- The tree of an indented line. -/
def indentedLine : List Tree :=
  [.leaf .other "" 2 3, .node .plain "simple_stmt" [.leaf .name "x" 2 3, .leaf .newline "\n" 2 4]]

/-- A line of three blanks gives a range that ends where it starts; with text behind the blanks the range is valid. -/
theorem folding_valid_iff_well_spaced_three_blanks :
    (Placed (brokenTree []) ∧ ∃ ranges : List FoldingRange,
      ((folding (brokenProgram "   ")).perform (parsing (brokenTree []))).1 =
          .ok (.list (ranges.map FoldingRange.toValue)) ∧
        ¬ ∀ r ∈ ranges, 0 ≤ r.startLine ∧ r.startLine < r.endLine) ∧
    Placed (brokenTree indentedLine) ∧ ∃ ranges : List FoldingRange,
      ((folding (brokenProgram "   x")).perform (parsing (brokenTree indentedLine))).1 =
          .ok (.list (ranges.map FoldingRange.toValue)) ∧
        ranges ≠ [] ∧ ∀ r ∈ ranges, 0 ≤ r.startLine ∧ r.startLine < r.endLine := by
  refine ⟨?_, ?_⟩
  · have hplaced : Placed (brokenTree []) := by simp [brokenTree, Placed, Folding.AllPlaced]
    have hanswer : ((folding (brokenProgram "   ")).perform (parsing (brokenTree []))).1 =
        .ok (.list [FoldingRange.toValue ⟨0, 0⟩]) := Fault.eq_ok_of_toOption (by decide +kernel)
    obtain ⟨source, ranges, hsource, hranges, -, -, -, hvalid, -⟩ := folding_valid_iff_well_spaced hplaced hanswer
    cases hsource
    refine ⟨hplaced, ranges, hranges ▸ hanswer, fun hall => ?_⟩
    exact absurd (hvalid.mp hall _ 1 rfl rfl) (by decide +kernel)
  · have hplaced : Placed (brokenTree indentedLine) := by
      simp [brokenTree, indentedLine, Placed, Folding.AllPlaced]
    have hanswer : ((folding (brokenProgram "   x")).perform (parsing (brokenTree indentedLine))).1 =
        .ok (.list [FoldingRange.toValue ⟨0, 1⟩]) := Fault.eq_ok_of_toOption (by decide +kernel)
    obtain ⟨source, ranges, hsource, hranges, -, -, -, hvalid, -⟩ := folding_valid_iff_well_spaced hplaced hanswer
    cases hsource
    refine ⟨hplaced, ranges, hranges ▸ hanswer, ?_, hvalid.mpr fun e line he hline => ?_⟩
    · rintro rfl
      exact nomatch hranges
    · cases he
      cases hline
      decide +kernel

end EditorService.Feature
