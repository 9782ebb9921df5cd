import EditorService.Feature.Folding
import Mathlib.Data.List.TakeWhile

/-!
# The visits of the walk

The walk over a syntax tree keeps a list of what waits. It takes a node from the front, and puts the children in its
place. So it comes to the nodes as a recursion over the tree would: `visits` has them in this order, each with what is
ahead of it, and what waits is what is left of the visits (`visitsOf_cons`).

**The law** (`walk_eq_foldlM`): the walk considers the visits up to the first error one after the other, and then deals
with the error. What each step keeps, the walk keeps (`invariant_of_foldlM`).
-/

namespace EditorService.Folding

open EditorService.Tool (Tree NodeClass)

/-! ## Preorder -/

mutual

/-- **The nodes of a tree, each before its children** and children in order. -/
def preorder : Tree → List Tree
  | .leaf cls value line column => [.leaf cls value line column]
  | .node cls type children => .node cls type children :: preorders children

/-- The nodes of a list of trees, one tree after the other. -/
def preorders : List Tree → List Tree
  | [] => []
  | t :: ts => preorder t ++ preorders ts

end

/-- **The node at which the walk ends**: the first in order that stands for an error. -/
def firstError? (t : Tree) : Option Tree := (preorder t).find? (·.isNode .error)

/-! ## Visits -/

/-- **A visit**: a node, and what is ahead of it, the nearest first. -/
structure Visit where
  node : Pending
  ahead : List Pending

mutual

/-- **The visits of a tree**, each node before its children. Behind the tree comes `after`. -/
def visits (parent : Option NodeClass) : Tree → List Pending → List Visit
  | .leaf cls value line column, after => [⟨⟨parent, .leaf cls value line column⟩, after⟩]
  | .node cls type children, after => ⟨⟨parent, .node cls type children⟩, after⟩ :: visitsIn cls children after

/-- The visits of the children of a node. Ahead of a child are its later siblings, and then what is behind the node. -/
def visitsIn (cls : NodeClass) : List Tree → List Pending → List Visit
  | [], _ => []
  | t :: ts, after => visits (some cls) t (ts.map (⟨some cls, ·⟩) ++ after) ++ visitsIn cls ts after

end

/-- The visits of trees that wait, one tree after the other. -/
def visitsOf : List Pending → List Visit
  | [] => []
  | p :: rest => visits p.parent p.tree rest ++ visitsOf rest

theorem visitsOf_siblings (cls : NodeClass) (ts : List Tree) (rest : List Pending) :
    visitsOf (ts.map (⟨some cls, ·⟩) ++ rest) = visitsIn cls ts rest ++ visitsOf rest := by
  induction ts with
  | nil => simp [visitsIn]
  | cons t ts ih => simp only [List.map_cons, List.cons_append, visitsOf, visitsIn, ih, List.append_assoc]

/-- **What waits is what is left of the visits**: the first one is that of the node in front, and the others are those of
what waits after it. -/
theorem visitsOf_cons (p : Pending) (rest : List Pending) :
    visitsOf (p :: rest) = ⟨p, rest⟩ :: visitsOf (childrenOf p.tree ++ rest) := by
  obtain ⟨parent, tree⟩ := p
  cases tree with
  | leaf => simp [visitsOf, visits, childrenOf]
  | node cls type children =>
    simp only [visitsOf, visits, childrenOf, List.cons_append]
    rw [visitsOf_siblings]

mutual

theorem tree_visits (parent : Option NodeClass) : ∀ (t : Tree) (after : List Pending),
    (visits parent t after).map (·.node.tree) = preorder t
  | .leaf cls value line column, after => by simp [visits, preorder]
  | .node cls type children, after => by
    simp only [visits, List.map_cons, preorder]
    rw [tree_visitsIn cls children after]

theorem tree_visitsIn (cls : NodeClass) : ∀ (ts : List Tree) (after : List Pending),
    (visitsIn cls ts after).map (·.node.tree) = preorders ts
  | [], _ => by simp [visitsIn, preorders]
  | t :: ts, after => by
    simp only [visitsIn, List.map_append, preorders]
    rw [tree_visits (some cls) t, tree_visitsIn cls ts after]

end

theorem visitsOf_root (t : Tree) : visitsOf [⟨none, t⟩] = visits none t [] := by simp [visitsOf]

/-! ## The walk as a fold -/

/-- What one visit adds to the folds. A line break adds nothing. -/
def consider (folds : Folds) (v : Visit) : Except Fault Folds :=
  if v.node.tree.isLeaf .newline then .ok folds else addNode folds v.node v.ahead

/-- Whether a visit is at a node that stands for an error. -/
def Visit.isError (v : Visit) : Bool := v.node.tree.isNode .error

/-- The visits before the first error. -/
def upToError (vs : List Visit) : List Visit := vs.takeWhile fun v => !v.isError

theorem upToError_cons_error {v : Visit} (h : v.isError = true) (vs : List Visit) : upToError (v :: vs) = [] := by
  simp [upToError, h]

theorem upToError_cons {v : Visit} (h : v.isError = false) (vs : List Visit) :
    upToError (v :: vs) = v :: upToError vs := by
  simp [upToError, h]

/-- What is done at an error: the folds by indentation of the lines from there on are merged in. -/
def mergeFrom (lines : List (List Char)) (found : Folds) : Option Tree → Except Fault Folds
  | none => .ok found
  | some e => do
    let start ← startOf e
    return merge found (← byIndentation (textFrom lines (start - 1)))

/-- **Induction over what waits**: a law holds if it holds at the end, and of a node in front as soon as it holds with the
children in its place. What waits then has a node less. -/
@[elab_as_elim]
theorem waitingInduction {P : List Pending → Prop} (nil : P [])
    (cons : ∀ p rest, P (childrenOf p.tree ++ rest) → P (p :: rest)) : ∀ waiting, P waiting
  | [] => nil
  | p :: rest => cons p rest (waitingInduction nil cons (childrenOf p.tree ++ rest))
termination_by waiting => pendingCount waiting
decreasing_by exact pendingCount_children p rest

/-- What the walk does with what waits, in the words of one turn. -/
theorem walk_cons (lines : List (List Char)) (folds : Folds) (p : Pending) (rest : List Pending) :
    walk lines folds (p :: rest) =
      if Visit.isError ⟨p, rest⟩ then mergeFrom lines folds (some p.tree)
      else consider folds ⟨p, rest⟩ >>= fun next => walk lines next (childrenOf p.tree ++ rest) := by
  rw [walk, Visit.isError]
  cases htree : p.tree with
  | leaf cls value line column =>
    simp only [Tree.isNode, Bool.false_eq_true, if_false, consider, htree]
    split <;> rfl
  | node cls type children =>
    simp only [Tree.isLeaf, Bool.false_eq_true, if_false, consider, htree]
    split <;> rfl

/-- **The walk as a fold over its visits**: each visit before the first error is considered, in order, and then the error is
dealt with. The walk stops with a fault exactly if one of these steps does, and with the fault of the first that does. -/
theorem walk_eq_foldlM (lines : List (List Char)) (folds : Folds) (waiting : List Pending) :
    walk lines folds waiting =
      (upToError (visitsOf waiting)).foldlM consider folds >>= fun found =>
        mergeFrom lines found ((visitsOf waiting).find? Visit.isError |>.map (·.node.tree)) := by
  induction waiting using waitingInduction generalizing folds with
  | nil =>
    rw [walk]
    rfl
  | cons p rest ih =>
    rw [walk_cons, visitsOf_cons]
    cases herror : Visit.isError ⟨p, rest⟩ with
    | true =>
      rw [upToError_cons_error herror, List.find?_cons_of_pos herror, if_pos rfl]
      rfl
    | false =>
      have hnot : ¬ Visit.isError ⟨p, rest⟩ = true := Bool.eq_false_iff.mp herror
      rw [upToError_cons herror, List.find?_cons_of_neg hnot, List.foldlM_cons, if_neg Bool.false_ne_true]
      simp only [bind_assoc, ih]

theorem find?_visits (t : Tree) : ((visits none t []).find? Visit.isError).map (·.node.tree) = firstError? t := by
  rw [firstError?, ← tree_visits none t [], List.find?_map]
  rfl

/-- **The walk over a whole tree**, up to its first error. -/
theorem walk_root (lines : List (List Char)) (tree : Tree) :
    walk lines [] [⟨none, tree⟩] = (upToError (visits none tree [])).foldlM consider [] >>= fun found =>
      mergeFrom lines found (firstError? tree) := by
  rw [walk_eq_foldlM, visitsOf_root, find?_visits]

/-- **What every visit keeps holds of the folds in the end.** -/
theorem invariant_of_foldlM {P : Folds → Prop} {vs : List Visit}
    (hstep : ∀ v ∈ vs, ∀ folds next, P folds → consider folds v = .ok next → P next) {folds found : Folds}
    (hfolds : P folds) (h : vs.foldlM consider folds = .ok found) : P found := by
  induction vs generalizing folds with
  | nil =>
    cases h
    exact hfolds
  | cons v rest ih =>
    rw [List.foldlM_cons] at h
    obtain ⟨next, hnext, h⟩ := Fault.bind_eq_ok.mp h
    exact ih (fun w hw => hstep w (List.mem_cons_of_mem v hw)) (hstep v List.mem_cons_self folds next hfolds hnext) h

end EditorService.Folding
