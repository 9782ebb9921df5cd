import EditorService.Feature.View
import EditorService.Folding.Walk

/-!
# Folding ranges

The parts of a document that an editor can fold away, lines counted from zero.
-/

namespace EditorService.Feature

/-- A folding range. -/
structure FoldingRange where
  startLine : Int
  endLine : Int
  deriving DecidableEq, Repr

/-- A folding range as a dictionary. -/
def FoldingRange.toValue (r : FoldingRange) : Value :=
  .dict [("startLine", .int r.startLine), ("endLine", .int r.endLine)]

/-- **The folding ranges of a program** with the given syntax tree. -/
def foldingRanges (source : List Char) (tree : Tool.Tree) : Except Fault (List FoldingRange) := do
  return (← Folding.ofTree source tree).map fun f => ⟨f.1 - 1, f.2 - 1⟩

/-- **The folding ranges of a document.** -/
def folding (v : DocumentView) : Job Value := do
  let source ← v.text
  let tree := (← Job.answers).parser.tree
  let ranges ← Job.ofExcept (foldingRanges source.toList tree)
  return .list (ranges.map FoldingRange.toValue)

end EditorService.Feature
