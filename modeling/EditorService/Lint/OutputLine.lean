import EditorService.Fault
import EditorService.SignedIndex
import EditorService.Text.Lines
import EditorService.Text.Number
import EditorService.Text.Split
import EditorService.Text.WordChar

/-!
# Lines of a linter's output

A linter that runs as a process writes one line for each finding: a path, the line and the column, a code and a
message. The path may itself hold colons, so the line is read from the back: of all ways to read it, the one with the
longest path counts. `OutputLine.render` writes what `OutputLine.read?` reads.
-/

namespace EditorService.Lint

/-- **A finding as a linter writes it.** The numbers are still text; they may be empty. -/
structure OutputLine where
  line : List Char
  column : List Char
  code : List Char
  message : List Char
  deriving DecidableEq, Repr

namespace OutputLine

/-- A run of characters of a kind, and what follows a mark right after it. -/
def run? (kind : Char → Bool) (mark : List Char) (s : List Char) : Option (List Char × List Char) := do
  let rest ← Text.dropPrefix? mark (s.dropWhile kind)
  return (s.takeWhile kind, rest)

/-- Reads what follows the path. `mark` stands between the code and the message. -/
def tail? (mark : List Char) (s : List Char) : Option OutputLine := do
  let s ← Text.dropPrefix? [':'] s
  let (line, s) ← run? Text.isDigit [':'] s
  let (column, s) ← run? Text.isDigit [':', ' '] s
  let (code, message) ← run? Text.isWordChar mark s
  return { line, column, code, message }

/-- **Reads a line** of output: the reading with the longest path counts. -/
def read? (mark : List Char) : List Char → Option OutputLine
  | [] => none
  | c :: rest =>
    match read? mark rest with
    | some found => some found
    | none => tail? mark (c :: rest)

/-- **Writes a line** of output. -/
def render (mark : List Char) (path : List Char) (o : OutputLine) : List Char :=
  path ++ ':' :: o.line ++ ':' :: o.column ++ ':' :: ' ' :: o.code ++ mark ++ o.message

/-- The number that a run of digits writes; no digits write none. -/
def number (digits : List Char) : Except Fault Int :=
  match Text.readInt? digits with
  | some n => .ok n
  | none => .error (.badInteger (String.ofList digits))

end OutputLine

/-- **The findings in a linter's output**, each made of one line; lines that cannot be read give none. -/
def findings {α : Type} (mark : List Char) (finding : OutputLine → Except Fault α) (output : List Char) :
    Except Fault (List α) :=
  ((Text.bareLines output).filterMap (OutputLine.read? mark)).mapM finding

/-- The number of characters of the line at a place. -/
def lineLength (lines : List (List Char)) (line : Int) : Except Fault Int :=
  (SignedIndex.get lines line).map fun l => l.length

end EditorService.Lint
