import EditorService.Proofs.FoldingRanges

/-!
# The walk in preorder

The walk over a syntax tree makes its visits in preorder. To find the end of a block it looks ahead in the list of what
waits, by a number of places that depends on the keyword. Nothing else touches the list, so what is ahead of each node can
be told from the tree alone.

* **Turns** (`Turns`): the walk turn by turn, with the visits so far.
* **Ends** (`get?_foldlM_consider`): the fold that is kept for a line ends where the longest one does.

**The law** (`walk_considers_preorder`): the walk ends after no more turns than there are nodes, and what it considers are
the nodes before the first error in preorder, each once. In a tree without errors each start is recorded with the greatest
end.
-/

namespace EditorService.Folding

open EditorService.Tool (Tree NodeClass)

/-! ## Counting nodes -/

mutual

theorem length_preorder : ∀ t : Tree, (preorder t).length = nodeCount t
  | .leaf .. => by simp [preorder, nodeCount]
  | .node _ _ children => by
    simp only [preorder, List.length_cons, nodeCount]
    rw [length_preorders children, Nat.add_comm]

theorem length_preorders : ∀ ts : List Tree, (preorders ts).length = nodeCounts ts
  | [] => by simp [preorders, nodeCounts]
  | t :: ts => by
    simp only [preorders, List.length_append, nodeCounts]
    rw [length_preorder t, length_preorders ts]

end

theorem length_visits (t : Tree) : (visits none t []).length = nodeCount t := by
  rw [← length_preorder, ← tree_visits none t [], List.length_map]

/-! ## Turns -/

/-- **Turns of the walk**, from some folds and what waits to others, with the visits on the way. Each turn takes the node in
front and puts its children in its place. It looks ahead, but what was ahead still waits, in the same order. -/
inductive Turns : Folds → List Pending → List Visit → Folds → List Pending → Prop where
  | done (folds : Folds) (waiting : List Pending) : Turns folds waiting [] folds waiting
  | turn {folds next found : Folds} {p : Pending} {rest left : List Pending} {seen : List Visit}
      (herror : Visit.isError ⟨p, rest⟩ = false) (hnext : consider folds ⟨p, rest⟩ = .ok next)
      (more : Turns next (childrenOf p.tree ++ rest) seen found left) :
      Turns folds (p :: rest) (⟨p, rest⟩ :: seen) found left

/-- **Every run of turns makes the visits in order**, from the first one on. -/
theorem Turns.visitsOf_eq {folds found : Folds} {waiting left : List Pending} {seen : List Visit}
    (h : Turns folds waiting seen found left) :
    visitsOf waiting = seen ++ visitsOf left ∧ ∀ v ∈ seen, v.isError = false := by
  induction h with
  | done folds waiting => exact ⟨rfl, fun v hv => by cases hv⟩
  | turn herror hnext more ih =>
    obtain ⟨hvisits, hseen⟩ := ih
    refine ⟨by rw [visitsOf_cons, hvisits, List.cons_append], fun v hv => ?_⟩
    rcases List.mem_cons.mp hv with rfl | hv
    · exact herror
    · exact hseen v hv

theorem Turns.prefix_upToError {folds found : Folds} {waiting left : List Pending} {seen : List Visit}
    (h : Turns folds waiting seen found left) : seen <+: upToError (visitsOf waiting) := by
  obtain ⟨hvisits, hseen⟩ := h.visitsOf_eq
  have hfirst : upToError (seen ++ visitsOf left) = seen ++ upToError (visitsOf left) :=
    List.takeWhile_append_of_pos fun v hv => by rw [hseen v hv]; rfl
  rw [hvisits, hfirst]
  exact List.prefix_append _ _

/-- **The walk goes turn by turn to its end**, unless it stops with a fault: to the end of the tree, or to the first error,
which is then dealt with. -/
theorem exists_turns {lines : List (List Char)} {folds result : Folds} {waiting : List Pending}
    (h : walk lines folds waiting = .ok result) :
    ∃ found left, Turns folds waiting (upToError (visitsOf waiting)) found left ∧
      (left = [] ∧ result = found ∨
        ∃ e rest, left = e :: rest ∧ e.tree.isNode .error = true ∧ mergeFrom lines found (some e.tree) = .ok result) := by
  induction waiting using waitingInduction generalizing folds with
  | nil =>
    rw [walk] at h
    exact ⟨folds, [], .done folds [], .inl ⟨rfl, (Except.ok.inj h).symm⟩⟩
  | cons p rest ih =>
    rw [walk_cons] at h
    rw [visitsOf_cons]
    cases herror : Visit.isError ⟨p, rest⟩ with
    | true =>
      rw [if_pos herror] at h
      rw [upToError_cons_error herror]
      exact ⟨folds, p :: rest, .done _ _, .inr ⟨p, rest, rfl, herror, h⟩⟩
    | false =>
      rw [if_neg (Bool.eq_false_iff.mp herror)] at h
      obtain ⟨next, hnext, h⟩ := Fault.bind_eq_ok.mp h
      obtain ⟨found, left, hturns, hend⟩ := ih h
      rw [upToError_cons herror]
      exact ⟨found, left, .turn herror hnext hturns, hend⟩

/-! ## Ends -/

/-- **The fold that a visit gives**, if it gives one: from the first to the last line of the node, where these differ. -/
def foldOf? (v : Visit) : Option (Int × Int) :=
  if v.node.tree.isLeaf .newline || isPassedOver v.node.tree || !givesFold v.node then none
  else (span v.node v.ahead).toOption.filter fun f => f.1 < f.2

/-- **The ends of all folds that start on a line**, in the order of their visits. -/
def endsAt (vs : List Visit) (start : Int) : List Int := ((vs.filterMap foldOf?).filter (·.1 == start)).map (·.2)

theorem consider_eq_ok {folds folds' : Folds} {v : Visit} (h : consider folds v = .ok folds') :
    folds' = (foldOf? v).elim folds fun f => addFold folds f.1 f.2 := by
  unfold consider at h
  split at h
  · next hnewline =>
    cases h
    simp [foldOf?, hnewline]
  · next hnewline =>
    unfold addNode at h
    split at h
    · next hpassed =>
      cases h
      have hnone : foldOf? v = none := if_pos (by rw [Bool.or_assoc, hpassed, Bool.or_true])
      rw [hnone]
      rfl
    · next hpassed =>
      obtain ⟨⟨start, stop⟩, hspan, h⟩ := Fault.bind_eq_ok.mp h
      cases h
      have hfold : foldOf? v = (some (start, stop)).filter fun f => f.1 < f.2 := by
        have hnone : ¬ (v.node.tree.isLeaf .newline || isPassedOver v.node.tree || !givesFold v.node) = true := by
          rw [Bool.or_assoc, Bool.or_eq_true]
          exact not_or.mpr ⟨hnewline, hpassed⟩
        rw [foldOf?, if_neg hnone, hspan]
        rfl
      rw [hfold, addFold]
      by_cases hlt : start < stop
      · simp [Option.filter, hlt, addFold]
      · simp [Option.filter, hlt]

/-- What a lookup sees after a fold was added, if ends are no negative numbers. -/
theorem get?_addFold (folds : Folds) {start stop : Int} (hlt : start < stop) (hstop : 0 ≤ stop) (line : Int) :
    Table.get? (addFold folds start stop) line =
      if line = start then (Table.get? folds line).merge max (some stop) else Table.get? folds line := by
  rw [addFold, if_pos hlt, Table.get?_put]
  split
  · next hline =>
    subst hline
    cases Table.get? folds line with
    | none =>
      have hmax : max (-1) stop = stop := by omega
      simp [hmax]
    | some other => rfl
  · rfl

theorem merge_max_assoc (a b c : Option Int) : (a.merge max b).merge max c = a.merge max (b.merge max c) := by
  cases a <;> cases b <;> cases c <;> simp [Int.max_assoc]

theorem max?_cons (x : Int) (xs : List Int) : (x :: xs).max? = (some x).merge max xs.max? := by
  rw [List.max?_cons]
  cases xs.max? <;> rfl

/-- **The end that is kept for a line is the greatest one**: of the end that was kept before, and of those of all folds that
start there. -/
theorem get?_foldlM_consider {folds found : Folds} {vs : List Visit} (h : vs.foldlM consider folds = .ok found)
    (hstop : ∀ v ∈ vs, ∀ f, foldOf? v = some f → 0 ≤ f.2) (line : Int) :
    Table.get? found line = (Table.get? folds line).merge max (endsAt vs line).max? := by
  induction vs generalizing folds with
  | nil =>
    cases h
    simp [endsAt]
  | cons v vs ih =>
    rw [List.foldlM_cons] at h
    obtain ⟨next, hnext, h⟩ := Fault.bind_eq_ok.mp h
    rw [ih h fun w hw => hstop w (List.mem_cons_of_mem v hw), consider_eq_ok hnext]
    cases hfold : foldOf? v with
    | none => simp [endsAt, hfold]
    | some f =>
      have hlt : f.1 < f.2 := by
        unfold foldOf? at hfold
        split at hfold
        · cases hfold
        · simpa using (Option.filter_eq_some_iff.mp hfold).2
      rw [Option.elim_some, get?_addFold folds hlt (hstop v List.mem_cons_self f hfold)]
      by_cases hline : line = f.1
      · subst hline
        have hends : endsAt (v :: vs) f.1 = f.2 :: endsAt vs f.1 := by simp [endsAt, hfold]
        rw [if_pos rfl, hends, max?_cons, merge_max_assoc]
      · have hends : endsAt (v :: vs) line = endsAt vs line := by
          simp [endsAt, hfold, Ne.symm hline]
        rw [if_neg hline, hends]

/-- A fold of a tree whose lines count from one ends behind line one. -/
theorem nonneg_of_foldOf? {v : Visit} (hplaced : Placed v.node.tree) {f : Int × Int} (h : foldOf? v = some f) :
    0 ≤ f.2 := by
  unfold foldOf? at h
  split at h
  · cases h
  · obtain ⟨hspan, hlt⟩ := Option.filter_eq_some_iff.mp h
    have hstart := hplaced.one_le (startOf_eq_ok.mp (span_start (Fault.eq_ok_of_toOption hspan)))
    have hlt : f.1 < f.2 := by simpa using hlt
    omega

/-! ## The whole tree -/

theorem tree_upToError (t : Tree) :
    (upToError (visits none t [])).map (·.node.tree) = (preorder t).takeWhile fun u => !u.isNode .error := by
  rw [← tree_visits none t [], List.takeWhile_map]
  rfl

theorem upToError_of_firstError? {t : Tree} (h : firstError? t = none) :
    upToError (visits none t []) = visits none t [] := by
  rw [← find?_visits, Option.map_eq_none_iff, List.find?_eq_none] at h
  exact List.takeWhile_eq_self_iff.mpr fun v hv => by simpa using h v hv

/-- **The walk considers the nodes before the first error, in preorder and each once.**

* The walk of a tree is a fold over visits: those that recursion on the tree gives, up to the first error. Their nodes are
  the nodes of the tree in preorder, up to there. A fault is that of the first visit that has one.
* However far the walk gets, its turns have made the first of these visits, so there are no more of them than nodes.
* If there is no fault, its turns make all of these visits. Then nothing is left, or the error is next.
* If there is no error, and lines count from one, the end that is recorded for a line is the greatest among those of the
  folds that start there, and none is recorded where no fold starts. -/
theorem walk_considers_preorder (lines : List (List Char)) (tree : Tree) :
    (walk lines [] [⟨none, tree⟩] = (upToError (visits none tree [])).foldlM consider [] >>= fun found =>
        mergeFrom lines found (firstError? tree)) ∧
    (upToError (visits none tree [])).map (·.node.tree) = (preorder tree).takeWhile (fun t => !t.isNode .error) ∧
    (∀ seen found left, Turns [] [⟨none, tree⟩] seen found left →
      seen <+: upToError (visits none tree []) ∧ seen.length ≤ nodeCount tree) ∧
    (∀ result, walk lines [] [⟨none, tree⟩] = .ok result →
      ∃ found left, Turns [] [⟨none, tree⟩] (upToError (visits none tree [])) found left ∧
        (left = [] ∧ firstError? tree = none ∧ result = found ∨
          ∃ e rest, left = e :: rest ∧ firstError? tree = some e.tree ∧ mergeFrom lines found (some e.tree) = .ok result)) ∧
    (Placed tree → firstError? tree = none → ∀ result, walk lines [] [⟨none, tree⟩] = .ok result →
      ∀ start, Table.get? result start = (endsAt (visits none tree []) start).max?) := by
  have hwalk := walk_root lines tree
  refine ⟨hwalk, tree_upToError tree, fun seen found left hturns => ?_, fun result hresult => ?_,
    fun hplaced hnone result hresult start => ?_⟩
  · have hseen := hturns.prefix_upToError
    rw [visitsOf_root] at hseen
    have hall : upToError (visits none tree []) <+: visits none tree [] := List.takeWhile_prefix _
    exact ⟨hseen, length_visits tree ▸ (hseen.trans hall).length_le⟩
  · obtain ⟨found, left, hturns, hend⟩ := exists_turns hresult
    have hrest := hturns.visitsOf_eq
    rw [visitsOf_root] at hturns hrest
    refine ⟨found, left, hturns, ?_⟩
    -- Where the turns end is told by the first visit that is left.
    have hfirst : firstError? tree = ((visitsOf left).find? Visit.isError).map (·.node.tree) := by
      have hseen : (upToError (visits none tree [])).find? Visit.isError = none :=
        List.find?_eq_none.mpr fun v hv => Bool.eq_false_iff.mp (hrest.2 v hv)
      rw [← find?_visits, hrest.1, List.find?_append, hseen, Option.none_or]
    rcases hend with ⟨rfl, rfl⟩ | ⟨e, rest, rfl, herror, hmerge⟩
    · exact .inl ⟨rfl, hfirst, rfl⟩
    · have hvisit : Visit.isError ⟨e, rest⟩ = true := herror
      rw [visitsOf_cons, List.find?_cons_of_pos hvisit] at hfirst
      exact .inr ⟨e, rest, rfl, hfirst, hmerge⟩
  · rw [hwalk, hnone, upToError_of_firstError? hnone] at hresult
    obtain ⟨found, hfound, hmerge⟩ := Fault.bind_eq_ok.mp hresult
    cases hmerge
    rw [get?_foldlM_consider hfound ?_ start]
    · simp
    · intro v hv f hf
      have hnode : v.node.tree ∈ preorder tree := tree_visits none tree [] ▸ List.mem_map_of_mem hv
      exact nonneg_of_foldOf? (hplaced.of_mem_preorder hnode) hf

/-- The tree of a loop over two lines. -/
def twoLineLoop : Tree :=
  .node .module "file_input" [
    .node .other "for_stmt" [
      .leaf .keyword "for" 1 0, .leaf .name "a" 1 4, .leaf .keyword "in" 1 6, .leaf .name "b" 1 9,
      .leaf .operator ":" 1 10,
      .node .plain "suite" [
        .leaf .newline "\n" 1 11,
        .node .plain "simple_stmt" [.leaf .name "c" 2 4, .leaf .newline "\n" 2 5],
        .node .plain "simple_stmt" [.leaf .name "d" 3 4, .leaf .newline "\n" 3 5]]],
    .leaf .endMarker "" 4 0]

/-- Three nodes of the loop give a fold that starts on its first line: the statement, its keyword by the block that is four
nodes ahead, and the block. All end on the last line of the block. -/
theorem walk_considers_preorder_two_line_loop :
    ∃ result, walk [] [] [⟨none, twoLineLoop⟩] = .ok result ∧ endsAt (visits none twoLineLoop []) 1 = [3, 3, 3] ∧
      Table.get? result 1 = some 3 := by
  have hends : endsAt (visits none twoLineLoop []) 1 = [3, 3, 3] := by decide +kernel
  have hwalk : walk [] [] [⟨none, twoLineLoop⟩] = .ok [(1, 3)] := Fault.eq_ok_of_toOption (by decide +kernel)
  have hplaced : Placed twoLineLoop := by simp [twoLineLoop, Placed, AllPlaced]
  have hnone : firstError? twoLineLoop = none := rfl
  obtain ⟨-, -, -, -, hmax⟩ := walk_considers_preorder [] twoLineLoop
  exact ⟨_, hwalk, hends, by rw [hmax hplaced hnone _ hwalk, hends]; rfl⟩

end EditorService.Folding
