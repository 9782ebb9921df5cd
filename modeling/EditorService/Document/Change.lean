import EditorService.Document.Line
import EditorService.Protocol.Range

/-!
# Changes to a document's text

A change either replaces a whole text or puts a text in the place of a range. The range is cut out of the lines: what
stands before its start and after its end is kept. A range that starts just past the last line adds to the end.
-/

namespace EditorService.Document

open EditorService.Protocol (Position Range)

/-- **A change**: a text, and the range it replaces when it does not replace everything. A change without a text lets
the document go back to what is on disk. -/
structure Change where
  text : Option String
  range : Option Range := none
  deriving DecidableEq, Repr

/-- Reads a change. -/
def Change.ofValue (v : Value) : Except Fault Change := do
  let text ← v.item "text"
  let range ← v.getD "range" .null
  let text ← match text with
    | .null => pure none
    | .str s => pure (some s)
    | _ => throw .wrongType
  if range.truthy then return { text, range := some (← Range.ofValue range) } else return { text }

/-- What a line contributes to the text after a range is replaced. -/
def keptOfLine (range : Range) (text : List Char) (i : Nat) (line : List Char) : List Char :=
  if (i : Int) < range.start.line || range.stop.line < i then line
  else
    (if (i : Int) = range.start.line then SignedIndex.before line range.start.character ++ text else []) ++
    (if (i : Int) = range.stop.line then SignedIndex.onward line range.stop.character else [])

/-- The lines from number `i` on, with the range replaced. -/
def replaceFrom (range : Range) (text : List Char) (i : Nat) : List (List Char) → List Char
  | [] => []
  | line :: rest => keptOfLine range text i line ++ replaceFrom range text (i + 1) rest

/-- **A text with a range replaced.** -/
def replaceRange (source : List Char) (range : Range) (text : List Char) : List Char :=
  let lines := Text.lines source
  if range.start.line = lines.length then source ++ text else replaceFrom range text 0 lines

end EditorService.Document
