import EditorService.Text.Lines
import EditorService.Text.WordChar
import EditorService.SignedIndex
import EditorService.Fault

/-!
# Places in the lines of a document

A client may name a character beyond the end of a line; `clipColumn` moves it back to the end of the line's content.
`wordAround` is the identifier around a place. `offsetOf` counts the characters in front of a place.
-/

namespace EditorService.Document

/-- The content of a line: what stands before its carriage returns and line feeds. -/
def content (line : List Char) : List Char :=
  (line.reverse.dropWhile fun c => c == '\r' || c == '\n').reverse

/-- **A column, moved back to the end of its line's content.** A line past the end has no columns. -/
def clipColumn (column : Int) (lines : List (List Char)) (line : Int) : Except Fault Int :=
  if line < lines.length then
    (SignedIndex.get lines line).map fun l => min column (content l).length
  else .ok (min column 0)

/-- The characters before a place that belong to the word there. One line feed at the end is passed over. -/
def wordBefore (s : List Char) : List Char :=
  let s := match s.reverse with
    | '\n' :: front => front
    | back => back
  (s.takeWhile Text.isAsciiWordChar).reverse

/-- The characters from a place on that belong to the word there. -/
def wordAfter (s : List Char) : List Char := s.takeWhile Text.isAsciiWordChar

/-- **The word around a column of a line.** -/
def wordAround (line : List Char) (column : Int) : List Char :=
  wordBefore (SignedIndex.before line column) ++ wordAfter (SignedIndex.onward line column)

/-- **The number of characters in front of a place.** -/
def offsetOf (lines : List (List Char)) (line character : Int) : Int :=
  character + (SignedIndex.before lines line).flatten.length

end EditorService.Document
