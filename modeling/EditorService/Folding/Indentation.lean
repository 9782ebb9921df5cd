import EditorService.Fault
import EditorService.Table
import EditorService.Text.Blank
import EditorService.Text.Lines

/-!
# Folds by indentation

Where a program cannot be parsed, its indentation still shows blocks. Lines are read from the top. A line further in
than the one before opens a block, which starts at the last line that was not blank. A line further out closes the
blocks that are at least as deep, and a line that is not indented closes all.

Lines are counted from one. A fold is a first and a last line.
-/

namespace EditorService.Folding

/-- **Folds**: last lines by first lines. -/
abbrev Folds := Table Int Int

/-- **How far in a line is**: the number of blanks in front of its text. A line of blanks alone counts its last blank
as text, so one blank is no indentation. -/
def level? (line : List Char) : Option Nat :=
  let blanks := (line.takeWhile Text.isBlank).length
  let level := if blanks == line.length then blanks - 1 else blanks
  if level == 0 then none else some level

/-- The reading of lines half done: folds that are closed; the levels of the blocks that are open, innermost first, and
the first lines of these blocks by level; the level of the line before; and the number of the last line that was not
blank. -/
structure Blocks where
  closed : List (Int × Int) := []
  levels : List Nat := []
  starts : Table Nat Int := []
  level : Nat := 0
  line : Int := 0
  deriving DecidableEq, Repr

/-- Closes the block of a level at the current line; `outer` are the levels of the blocks around it. The block must have
a first line. -/
def Blocks.close (b : Blocks) (level : Nat) (outer : List Nat) : Except Fault Blocks :=
  match Table.get? b.starts level with
  | some start =>
    .ok { b with
      closed := b.closed ++ [(start, b.line)], levels := outer, starts := Table.erase b.starts level }
  | none => .error (.levelMissing level)

/-- Closes the blocks of all levels in a list, innermost first. -/
def Blocks.closeEach (b : Blocks) : List Nat → Except Fault Blocks
  | [] => .ok b
  | level :: outer => do (← b.close level outer).closeEach outer

/-- Closes every open block. -/
def Blocks.closeAll (b : Blocks) : Except Fault Blocks := b.closeEach b.levels

/-- Closes those blocks of a list of levels that are at least as deep as `level`. There must be one that stays. -/
def Blocks.closeDeeper (b : Blocks) (level : Nat) : List Nat → Except Fault Blocks
  | [] => .error .popEmpty
  | inner :: outer =>
    if level ≤ inner then do (← b.close inner outer).closeDeeper level outer
    else .ok { b with level }

/-- Goes to the level of a line, which opens a block or closes blocks. -/
def Blocks.enter (b : Blocks) (line : List Char) : Except Fault Blocks :=
  match level? line with
  | some level =>
    if b.level < level then
      .ok { b with levels := b.level :: b.levels, starts := Table.put b.starts b.level b.line, level }
    else if level < b.level then b.closeDeeper level b.levels
    else .ok b
  | none => do return { ← b.closeAll with level := 0 }

/-- **Reads one line**, the one with number `i`. -/
def Blocks.read (b : Blocks) (i : Int) (line : List Char) : Except Fault Blocks := do
  let entered ← b.enter line
  return if (Text.trim line).isEmpty then entered else { entered with line := i }

/-- Reads lines, the first of which has the number `i`. -/
def Blocks.readAll (b : Blocks) (i : Int) : List (List Char) → Except Fault Blocks
  | [] => .ok b
  | line :: rest => do (← b.read i line).readAll (i + 1) rest

/-- **The folds of a text by its indentation.** Empty lines at the top are passed over, and something must follow. -/
def byIndentation (text : List Char) : Except Fault Folds := do
  let lines := Text.bareLines text
  let empty := (lines.takeWhile (·.isEmpty)).length
  if empty == lines.length then throw .indexRange
  let b ← Blocks.readAll { line := empty } (empty + 1) (lines.drop empty)
  return Table.ofList (← b.closeAll).closed

/-- **Folds found by indentation added to folds found before.** -/
def merge (left right : Folds) : Folds :=
  let kept : Folds := left.map fun (start, stop) =>
    match Table.get? right start with
    | some other => (start, max other start)
    | none => (start, stop)
  Table.putAll kept (right.filter fun r => !Table.has left r.1)

/-- Puts a fold into its place among folds in order of their first lines. -/
def insertFold (fold : Int × Int) : Folds → Folds
  | [] => [fold]
  | other :: rest =>
    if fold.1 < other.1 || (fold.1 == other.1 && fold.2 ≤ other.2) then fold :: other :: rest
    else other :: insertFold fold rest

/-- Folds in order of their first lines. -/
def sorted (folds : Folds) : List (Int × Int) := folds.foldr insertFold []

end EditorService.Folding
