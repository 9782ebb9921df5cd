import EditorService.Folding.Indentation
import EditorService.SignedIndex
import EditorService.Tool.Tree
import EditorService.Text.Split

/-!
# Folds by syntax

The folds of a program come from its syntax tree. The tree is walked from the top, every node before its children and
children in order. A node that spans lines gives a fold; of two folds that start on one line the longer counts. The
walk ends at the first node that stands for an error: from there on, indentation decides.

Some nodes give no fold of their own. A keyword that opens a block gives the fold of the block, which stands a fixed
number of nodes further on.
-/

namespace EditorService.Folding

open EditorService.Tool (Tree NodeClass)

/-- A tree that waits to be looked at, with the class of the node it is a child of. -/
structure Pending where
  parent : Option NodeClass
  tree : Tree

/-- The children of a tree, waiting. -/
def childrenOf (t : Tree) : List Pending :=
  match t with
  | .node cls _ children => children.map fun c => ⟨some cls, c⟩
  | .leaf .. => []

/-- The line where a tree starts. -/
def startOf (t : Tree) : Except Fault Int :=
  match t.startLine? with
  | some line => .ok line
  | none => .error .indexRange

/-- The line where a tree ends. -/
def endOf (t : Tree) : Except Fault Int :=
  match t.endLine? with
  | some line => .ok line
  | none => .error .indexRange

/-- **Whether a node may give a fold.** The body of a function does not: the function itself does. -/
def givesFold (p : Pending) : Bool :=
  match p.tree with
  | .node .plain type _ =>
    !(["decorated", "parameters", "dictorsetmaker", "testlist_comp"].contains type) &&
      !(type == "suite" && p.parent == some .function)
  | _ => true

/-- Nodes that are passed over: only their children count. -/
def isPassedOver (t : Tree) : Bool := t.isNode .module || t.isNode .ifStatement || t.isNode .tryStatement

/-- **How many nodes lie between a keyword and the block it opens.** -/
def blockDistance? (keyword : String) (ahead : List Pending) : Except Fault (Option Nat) :=
  if ["if", "elif", "with", "while"].contains keyword then .ok (some 2)
  else if keyword == "except" then
    match ahead with
    | [] => .error .indexRange
    | next :: _ => .ok (some (if next.tree.isLeaf .operator then 1 else 2))
  else if keyword == "for" then .ok (some 4)
  else if keyword == "else" then .ok (some 1)
  else .ok none

/-- The line where the block of a keyword ends; a keyword without a block ends where it stands. -/
def keywordEnd (keyword : String) (own : Int) (ahead : List Pending) : Except Fault Int := do
  match ← blockDistance? keyword ahead with
  | none => return own
  | some n =>
    match ahead[n]? with
    | some p => endOf p.tree
    | none => throw .indexRange

/-- Whether a node takes its last line along when the next node starts beyond it. -/
def reachesNext (p : Pending) : Bool :=
  p.parent == some .plain &&
    match p.tree with
    | .node _ type _ => ["suite", "atom", "atom_expr", "arglist"].contains type
    | .leaf .. => false

/-- **The first and last line of a node**, given the nodes that come after it. -/
def span (p : Pending) (ahead : List Pending) : Except Fault (Int × Int) := do
  let start ← startOf p.tree
  let own ← endOf p.tree
  match p.tree with
  | .leaf .keyword value _ _ => return (start, (← keywordEnd value own ahead) - 1)
  | _ =>
    let last := own - 1
    match ahead with
    | next :: _ =>
      if reachesNext p then
        return (start, if last < (← startOf next.tree) then last + 1 else last)
      else return (start, last)
    | [] => return (start, last)

/-- Adds a fold; of two that start on one line the longer counts. -/
def addFold (folds : Folds) (start stop : Int) : Folds :=
  if start < stop then Table.put folds start (max ((Table.get? folds start).getD (-1)) stop) else folds

/-- What is left of a program from a line on, with empty lines in the place of those before. -/
def textFrom (lines : List (List Char)) (line : Int) : List Char :=
  Text.join ['\n'] (List.replicate line.toNat [] ++ SignedIndex.onward lines line) ++ ['\n']

mutual

/-- The number of nodes of a tree. -/
def nodeCount : Tree → Nat
  | .leaf .. => 1
  | .node _ _ children => 1 + nodeCounts children

/-- The number of nodes of a list of trees. -/
def nodeCounts : List Tree → Nat
  | [] => 0
  | t :: ts => nodeCount t + nodeCounts ts

end

/-- The number of nodes that wait. -/
def pendingCount (ps : List Pending) : Nat := nodeCounts (ps.map (·.tree))

theorem nodeCounts_append (as bs : List Tree) : nodeCounts (as ++ bs) = nodeCounts as + nodeCounts bs := by
  induction as with
  | nil => simp [nodeCounts]
  | cons a as ih => simp [nodeCounts, ih, Nat.add_assoc]

theorem pendingCount_children (p : Pending) (rest : List Pending) :
    pendingCount (childrenOf p.tree ++ rest) < pendingCount (p :: rest) := by
  simp only [pendingCount, List.map_append, List.map_cons, nodeCounts_append, nodeCounts]
  cases p.tree with
  | leaf => simp [childrenOf, nodeCounts, nodeCount]
  | node cls type children =>
    have hmap : (childrenOf (.node cls type children)).map (·.tree) = children := by
      simp [childrenOf, Function.comp_def]
    rw [hmap, nodeCount]
    omega

/-- The fold of one node, added to those before. -/
def addNode (folds : Folds) (p : Pending) (ahead : List Pending) : Except Fault Folds := do
  if isPassedOver p.tree || !givesFold p then return folds
  let (start, stop) ← span p ahead
  return addFold folds start stop

/-- **Walks through the trees that wait.** -/
def walk (lines : List (List Char)) (folds : Folds) (waiting : List Pending) : Except Fault Folds :=
  match waiting with
  | [] => .ok folds
  | p :: rest =>
    if p.tree.isLeaf .newline then walk lines folds rest
    else if p.tree.isNode .error then do
      let start ← startOf p.tree
      return merge folds (← byIndentation (textFrom lines (start - 1)))
    else do
      let folds ← addNode folds p rest
      walk lines folds (childrenOf p.tree ++ rest)
termination_by pendingCount waiting
decreasing_by
  · simp only [pendingCount, List.map_cons, nodeCounts]
    cases p.tree <;> (simp only [nodeCount]; omega)
  · exact pendingCount_children p rest

/-- **The folds of a program**, in order, lines counted from one. -/
def ofTree (source : List Char) (tree : Tree) : Except Fault (List (Int × Int)) := do
  let lines := Text.bareLines (source ++ ['\n'])
  return sorted (← walk lines [] [⟨none, tree⟩])

end EditorService.Folding
