import EditorService.Proofs.FoldingRanges

/-!
# Folds of two kinds, merged

Where the walk over a syntax tree meets an error, the folds by indentation of the rest are merged into those that were
found before. Both kinds can have a fold that starts on the same line. The longer one should stay, as it does among the
folds of the tree alone; but the one by indentation stays, whichever is longer.

`gather` is the walk up to the error, apart from what is done there (`walk_eq_gather`).

**The law** (`merge_longest_iff`): no start is lost and none is added, and every end is the longer one exactly if the
second folds cover the first: where both start on one line, the second ends no earlier. So a fold that was found in the
tree is cut short exactly if a shorter one by indentation starts on its line.
-/

namespace EditorService.Folding

open EditorService.Tool (Tree)

/-! ## The walk up to an error -/

/-- **The folds up to the first error**, and the node that stands for it. -/
def gather (folds : Folds) (waiting : List Pending) : Except Fault (Folds × Option Tree) := do
  let found ← (upToError (visitsOf waiting)).foldlM consider folds
  return (found, ((visitsOf waiting).find? Visit.isError).map (·.node.tree))

/-- **The walk goes up to the first error and ends there.** -/
theorem walk_eq_gather (lines : List (List Char)) (folds : Folds) (waiting : List Pending) :
    walk lines folds waiting = gather folds waiting >>= fun r => mergeFrom lines r.1 r.2 := by
  simp only [walk_eq_foldlM, gather, bind_assoc, pure_bind]

theorem nodup_addNode {folds folds' : Folds} {p : Pending} {ahead : List Pending} (hfolds : folds.keys.Nodup)
    (h : addNode folds p ahead = .ok folds') : folds'.keys.Nodup := by
  unfold addNode at h
  split at h
  · cases h
    exact hfolds
  · obtain ⟨⟨start, stop⟩, -, h⟩ := Fault.bind_eq_ok.mp h
    cases h
    unfold addFold
    split
    · exact Table.nodup_put hfolds _ _
    · exact hfolds

theorem nodup_gather {folds found : Folds} {waiting : List Pending} {error? : Option Tree}
    (h : gather folds waiting = .ok (found, error?)) (hfolds : folds.keys.Nodup) : found.keys.Nodup := by
  obtain ⟨_, hfound, h⟩ := Fault.bind_eq_ok.mp h
  cases h
  refine invariant_of_foldlM (P := fun folds => folds.keys.Nodup) (fun v _ folds next hfolds hnext => ?_) hfolds hfound
  unfold consider at hnext
  split at hnext
  · cases hnext
    exact hfolds
  · exact nodup_addNode hfolds hnext

/-! ## Merging -/

/-- **Folds cover others**: where both have one that starts on the same line, theirs ends no earlier. -/
def Covers (left right : Folds) : Prop := ∀ f ∈ left, ∀ g ∈ right, f.1 = g.1 → f.2 ≤ g.2

instance (left right : Folds) : Decidable (Covers left right) :=
  inferInstanceAs (Decidable (∀ f ∈ left, ∀ g ∈ right, f.1 = g.1 → f.2 ≤ g.2))

theorem covers_iff {left right : Folds} (hleft : left.keys.Nodup) (hright : right.keys.Nodup) :
    Covers left right ↔ ∀ start stop other, Table.get? left start = some stop → Table.get? right start = some other →
      stop ≤ other := by
  constructor
  · intro h start stop other hstop hother
    exact h _ (Table.mem_of_get? hstop) _ (Table.mem_of_get? hother) rfl
  · rintro h ⟨start, stop⟩ hf ⟨start', other⟩ hg heq
    cases heq
    exact h start stop other (Table.get?_of_mem hleft hf) (Table.get?_of_mem hright hg)

section

variable {left right : Folds}

/-- The end of a merged fold is the one by indentation, if there is one. -/
theorem get?_merge_eq_or (hright : right.keys.Nodup) (hstop : ∀ f ∈ right, f.1 ≤ f.2) (start : Int) :
    Table.get? (merge left right) start = (Table.get? right start).or (Table.get? left start) := by
  rw [get?_merge hright]
  cases hfound : Table.get? right start with
  | none => rfl
  | some stop =>
    -- No fold found by indentation ends in front of its start.
    have hle : start ≤ stop := hstop _ (Table.mem_of_get? hfound)
    simp only [Option.some_or, Int.max_eq_left hle, ite_self]

theorem mem_keys_merge (hright : right.keys.Nodup) (hstop : ∀ f ∈ right, f.1 ≤ f.2) (start : Int) :
    start ∈ (merge left right).keys ↔ start ∈ left.keys ∨ start ∈ right.keys := by
  simp only [Table.mem_keys_iff, get?_merge_eq_or hright hstop, Option.isSome_or, Bool.or_eq_true]
  exact or_comm

/-- **Every end is the longer one exactly if the second folds cover the first.** -/
theorem get?_merge_eq_max_iff (hleft : left.keys.Nodup) (hright : right.keys.Nodup) (hstop : ∀ f ∈ right, f.1 ≤ f.2) :
    (∀ start, Table.get? (merge left right) start = (Table.get? left start).merge max (Table.get? right start)) ↔
      Covers left right := by
  rw [covers_iff hleft hright]
  refine forall_congr' fun start => ?_
  rw [get?_merge_eq_or hright hstop]
  cases Table.get? left start with
  | none => cases Table.get? right start <;> simp
  | some stop =>
    cases Table.get? right start with
    | none => simp
    | some other =>
      have hmax : other = max stop other ↔ stop ≤ other := by omega
      simp only [Option.some_or, Option.merge_some_some, Option.some.injEq, hmax]
      exact ⟨fun hle _ _ hs ho => hs ▸ ho ▸ hle, fun h => h stop other rfl rfl⟩

/-- **No fold gets shorter exactly if the second folds cover the first.** -/
theorem keeps_length_iff (hleft : left.keys.Nodup) (hright : right.keys.Nodup) (hstop : ∀ f ∈ right, f.1 ≤ f.2) :
    (∀ f ∈ left, ∃ g ∈ merge left right, g.1 = f.1 ∧ f.2 ≤ g.2) ↔ Covers left right := by
  have hkept : ∀ f ∈ left, (∃ g ∈ merge left right, g.1 = f.1 ∧ f.2 ≤ g.2) ↔
      ∃ stop, (Table.get? right f.1).or (some f.2) = some stop ∧ f.2 ≤ stop := by
    intro f hf
    rw [← Table.get?_of_mem hleft hf, ← get?_merge_eq_or hright hstop]
    constructor
    · rintro ⟨⟨start, stop⟩, hg, rfl, hle⟩
      exact ⟨stop, Table.get?_of_mem (nodup_merge hleft right) hg, hle⟩
    · rintro ⟨stop, hget, hle⟩
      exact ⟨(f.1, stop), Table.mem_of_get? hget, rfl, hle⟩
  refine forall_congr' fun f => forall_congr' fun hf => (hkept f hf).trans ?_
  constructor
  · rintro ⟨stop, hget, hle⟩ g hg heq
    rw [heq, Table.get?_of_mem hright hg] at hget
    cases hget
    exact hle
  · intro hcovers
    cases hfound : Table.get? right f.1 with
    | none => exact ⟨f.2, rfl, Int.le_refl _⟩
    | some stop => exact ⟨stop, rfl, hcovers _ (Table.mem_of_get? hfound) rfl⟩

end

/-- **Merging keeps the longer end exactly if the second folds cover the first.** For any two tables of folds, those of the
second ending no earlier than they start:

* the starts are those of both tables, each once, and the end at a start is that of the second table where it has one;
* every end is the longer one, and no fold of the first table gets shorter, exactly if the second table covers the first;
* a program with an error has the folds up to the error, merged with those by indentation from there on, in order, and
  none of the folds up to the error gets shorter exactly if they are covered. -/
theorem merge_longest_iff {left right : Folds} (hleft : left.keys.Nodup) (hright : right.keys.Nodup)
    (hstop : ∀ f ∈ right, f.1 ≤ f.2) :
    ((merge left right).keys.Nodup ∧
      (∀ start, start ∈ (merge left right).keys ↔ start ∈ left.keys ∨ start ∈ right.keys) ∧
      ∀ start, Table.get? (merge left right) start = (Table.get? right start).or (Table.get? left start)) ∧
    ((∀ start, Table.get? (merge left right) start = (Table.get? left start).merge max (Table.get? right start)) ↔
      Covers left right) ∧
    ((∀ f ∈ left, ∃ g ∈ merge left right, g.1 = f.1 ∧ f.2 ≤ g.2) ↔ Covers left right) ∧
    ∀ (source : List Char) (tree e : Tree) (found indented : Folds) (line : Int),
      gather [] [⟨none, tree⟩] = .ok (found, some e) → startOf e = .ok line →
      byIndentation (textFrom (Text.bareLines (source ++ ['\n'])) (line - 1)) = .ok indented →
        ∃ folds, ofTree source tree = .ok folds ∧ folds.Perm (merge found indented) ∧
          ((∀ f ∈ found, ∃ g ∈ folds, g.1 = f.1 ∧ f.2 ≤ g.2) ↔ Covers found indented) := by
  refine ⟨⟨nodup_merge hleft right, mem_keys_merge hright hstop, get?_merge_eq_or hright hstop⟩,
    get?_merge_eq_max_iff hleft hright hstop, keeps_length_iff hleft hright hstop, ?_⟩
  intro source tree e found indented line hfound hline hindented
  have hwalk : walk (Text.bareLines (source ++ ['\n'])) [] [⟨none, tree⟩] = .ok (merge found indented) := by
    rw [walk_eq_gather, hfound]
    show mergeFrom _ found (some e) = _
    exact Fault.bind_eq_ok.mpr ⟨line, hline, Fault.bind_eq_ok.mpr ⟨indented, hindented, rfl⟩⟩
  have hperm := perm_sorted (merge found indented)
  refine ⟨sorted (merge found indented), Fault.bind_eq_ok.mpr ⟨_, hwalk, rfl⟩, hperm, ?_⟩
  obtain ⟨hkeys, hbounds, -⟩ := byIndentation_eq_ok hindented
  simp only [hperm.mem_iff]
  exact keeps_length_iff (nodup_gather hfound List.nodup_nil) hkeys fun f hf => (hbounds f hf).2

/-- The tree of a function of four lines, the second of which cannot be parsed. The third is a comment that is not
indented, so it is in no node. -/
def brokenFunction : Tree :=
  .node .module "file_input" [
    .node .function "funcdef" [
      .leaf .keyword "def" 1 0, .leaf .name "f" 1 4,
      .node .plain "parameters" [.leaf .operator "(" 1 5, .leaf .operator ")" 1 6], .leaf .operator ":" 1 7,
      .node .plain "suite" [
        .leaf .newline "\n" 1 8,
        .node .error "error_node" [.leaf .name "a" 2 4],
        .node .plain "simple_stmt" [.leaf .name "b" 2 6, .leaf .newline "\n" 2 7],
        .node .plain "simple_stmt" [.leaf .name "d" 4 4, .leaf .newline "\n" 4 5]]],
    .leaf .endMarker "" 5 0]

/-- The function ends on line four. By indentation a block ends at the comment, and the function is cut short there. -/
theorem merge_longest_iff_broken_function :
    (∀ start, Table.get? (merge [(1, 2)] [(1, 4)]) start =
      (Table.get? [(1, 2)] start).merge max (Table.get? [(1, 4)] start)) ∧
    (¬ ∀ start, Table.get? (merge [(1, 4)] [(1, 2), (3, 4)]) start =
      (Table.get? [(1, 4)] start).merge max (Table.get? [(1, 2), (3, 4)] start)) ∧
    ∃ folds, ofTree "def f():\n    a b\n# c\n    d\n".toList brokenFunction = .ok folds ∧
      ¬ ∃ g ∈ folds, g.1 = 1 ∧ 4 ≤ g.2 := by
  obtain ⟨-, hlonger, -⟩ := @merge_longest_iff [(1, 2)] [(1, 4)] (by decide) (by decide) (by decide)
  obtain ⟨-, hshorter, -, hprogram⟩ :=
    @merge_longest_iff [(1, 4)] [(1, 2), (3, 4)] (by decide) (by decide) (by decide)
  refine ⟨hlonger.mpr (by decide), fun hall => absurd (hshorter.mp hall) (by decide), ?_⟩
  have hgathered : ((gather [] [⟨none, brokenFunction⟩]).toOption.bind fun r =>
      r.2.map fun e => (r.1, (startOf e).toOption)) = some ([(1, 4)], some 2) := by
    decide +kernel
  obtain ⟨⟨found, error?⟩, hfound, hmap⟩ := Option.bind_eq_some_iff.mp hgathered
  obtain ⟨e, rfl, hpair⟩ := Option.map_eq_some_iff.mp hmap
  obtain ⟨rfl, hline⟩ := Prod.mk.inj hpair
  obtain ⟨folds, hfolds, -, hcut⟩ := hprogram "def f():\n    a b\n# c\n    d\n".toList brokenFunction e _
    [(1, 2), (3, 4)] 2 (Fault.eq_ok_of_toOption hfound) (Fault.eq_ok_of_toOption hline)
    (Fault.eq_ok_of_toOption (by decide +kernel))
  refine ⟨folds, hfolds, fun hlong => ?_⟩
  exact absurd (hcut.mp (by simpa using hlong)) (by decide)

end EditorService.Folding
