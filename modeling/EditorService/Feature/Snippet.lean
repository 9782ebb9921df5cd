import EditorService.Feature.Engine
import EditorService.Text.Blank

/-!
# Whether a completion may be a snippet

A snippet puts parentheses and parameters after a name. On an import statement that would be wrong. The statement up
to the cursor may span lines: a line that ends in a backslash, an opening parenthesis or a comma is continued by the
next. The parser then says what kind of statement it is.
-/

namespace EditorService.Feature

open EditorService.Text (trimEnd trim)

/-- Cuts a text at line feeds, at most `most` times. -/
def splitLines (most : Nat) : List Char → List (List Char)
  | [] => [[]]
  | c :: rest =>
    match most with
    | 0 => [c :: rest]
    | n + 1 =>
      if c == '\n' then [] :: splitLines n rest
      else match splitLines (n + 1) rest with
        | [] => [[c]]
        | line :: lines => (c :: line) :: lines

/-- Whether a line is continued by the next. -/
def isContinued (line : List Char) : Bool :=
  match (trimEnd line).getLast? with
  | some c => c == '\\' || c == '(' || c == ','
  | none => false

/-- Whether a line ends in an opening parenthesis. -/
def opensParenthesis (line : List Char) : Bool := (trimEnd line).getLast? == some '('

/-- The lines just above a place that are continued, given nearest first; the answer is in order. -/
def continuedAbove : List (List Char) → List (List Char)
  | [] => []
  | line :: above => if isContinued line then continuedAbove above ++ [line] else []

/-- What follows the last semicolon. -/
def afterSemicolon (s : List Char) : List Char := (Text.splitLast ';' s).2

/-- The lines of a text up to a line, and the rest in one piece; all lines for a line counted from the back. -/
def linesFor (line : Int) (source : List Char) : Except Fault (List (List Char)) :=
  if !SignedIndex.isPlace line then .error .countWidth
  else .ok (if 0 ≤ line then splitLines line.toNat source else Text.split '\n' source)

/-- **The statement up to the cursor**, closed with a parenthesis where one is open. -/
def statementBefore (lines : List (List Char)) (line character : Int) : Except Fault (List Char) := do
  let here := SignedIndex.before (← SignedIndex.get lines line) character
  let above := if 0 < line then continuedAbove (lines.take line.toNat).reverse else []
  let closes := above.any opensParenthesis || (trim here).contains '('
  let code := trim (afterSemicolon (Text.join ['\n'] (above ++ [here])))
  return code ++ (if closes then [')'] else [])

/-- **Whether completions at a position may be snippets.** -/
def mayUseSnippets (v : DocumentView) (position : Value) : Job Bool := do
  let line ← Job.ofExcept (position.item "line")
  let source ← v.text
  let line ← Job.ofExcept line.number
  let lines ← Job.ofExcept (linesFor line source.toList)
  let _ ← Job.ofExcept (SignedIndex.get lines line)
  let character ← Job.ofExcept do (← position.item "character").number
  let code ← Job.ofExcept (statementBefore lines line character)
  Job.note "parso.parse" [("code", .str (String.ofList code))]
  let statement := (← Job.answers).parser.statement
  return !(statement == "import_name" || statement == "import_from") &&
    !(statement == "error_node" && Text.contains "import".toList code)

end EditorService.Feature
