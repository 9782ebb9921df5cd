import EditorService.Text.Lines

/-!
# Syntax trees

The trees that a parser of the source language gives. Inner nodes have a class, a type and children; leaves have a
class, the text they stand for, and the place where it starts. Lines count from one and columns from zero.

Where a tree starts and ends follows from its leaves.
-/

namespace EditorService.Tool

/-- The classes of inner nodes that matter. A lambda is a function too. -/
inductive NodeClass where
  | module
  | ifStatement
  | tryStatement
  | function
  | plain
  | error
  | other
  deriving DecidableEq, Repr

/-- The classes of leaves that matter. A leaf of class `name` or `endMarker` stays on its line, as an operator and a
keyword do. -/
inductive LeafClass where
  | newline
  | keyword
  | operator
  | name
  | endMarker
  | other
  deriving DecidableEq, Repr

/-- **A syntax tree.** -/
inductive Tree where
  | node (cls : NodeClass) (type : String) (children : List Tree)
  | leaf (cls : LeafClass) (value : String) (line : Int) (column : Int)
  deriving Repr

/-- How many line breaks a leaf's text holds; `\r\n` is one, and nothing but `\n` and `\r` breaks. -/
def breakCount (s : List Char) : Nat := (Text.unifyBreaks s).count '\n'

namespace Tree

mutual

/-- The line where a tree starts. An inner node without children starts nowhere. -/
def startLine? : Tree → Option Int
  | .leaf _ _ line _ => some line
  | .node _ _ children => startLineOf? children

/-- The line where the first of a list of trees starts. -/
def startLineOf? : List Tree → Option Int
  | [] => none
  | t :: _ => t.startLine?

end

mutual

/-- The last leaf of a tree. -/
def lastLeaf? : Tree → Option Tree
  | .leaf cls value line column => some (.leaf cls value line column)
  | .node _ _ children => lastLeafOf? children

/-- The last leaf of the last of a list of trees. -/
def lastLeafOf? : List Tree → Option Tree
  | [] => none
  | [t] => t.lastLeaf?
  | _ :: next :: rest => lastLeafOf? (next :: rest)

end

/-- The line where a leaf ends. -/
def leafEndLine : LeafClass → List Char → Int → Int
  | .operator, _, line => line
  | .keyword, _, line => line
  | .name, _, line => line
  | .endMarker, _, line => line
  | .newline, value, line => line + breakCount value
  | .other, value, line => line + breakCount value

/-- The line where a tree ends: that of its last leaf. -/
def endLine? (t : Tree) : Option Int :=
  match t.lastLeaf? with
  | some (.leaf cls value line _) => some (leafEndLine cls value.toList line)
  | _ => none

/-- The children of a tree; a leaf has none. -/
def children : Tree → List Tree
  | .node _ _ children => children
  | .leaf .. => []

/-- Whether a tree is a leaf of the given class. -/
def isLeaf (cls : LeafClass) : Tree → Bool
  | .leaf c _ _ _ => c == cls
  | .node .. => false

/-- Whether a tree is an inner node of the given class. -/
def isNode (cls : NodeClass) : Tree → Bool
  | .node c _ _ => c == cls
  | .leaf .. => false

end Tree

end EditorService.Tool
