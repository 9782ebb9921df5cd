import EditorService.Feature.Rename

/-!
# Formatting

Two formatters can lay a document out anew, as a whole or in a range. A range is first widened to whole lines. The
answer is one edit that replaces everything, or none when nothing changes.

One of the formatters brings a check of its own for indentation. While it runs, that check takes the place of the style
checker's; afterwards the style checker's is put back.
-/

namespace EditorService.Feature

open EditorService.Protocol (Edit)

/-- A range widened to whole lines, and the first and last line of it as formatters count. -/
structure Widened where
  range : Value
  first : Int
  last : Int

/-- **Widens a range to whole lines.** -/
def widen (range : Value) : Except Fault Widened := do
  let start ← range.item "start"
  let start ← match start with
    | .dict entries => pure (Value.dict (Table.put entries "character" (.int 0)))
    | _ => throw .wrongType
  let stop ← range.item "end"
  let last ← (← stop.item "line").number
  let stop ← match stop with
    | .dict entries => pure (Value.dict (Table.put (Table.put entries "line" (.int (last + 1))) "character" (.int 0)))
    | _ => throw .wrongType
  let entries ← range.entries
  let widened := Value.dict (Table.put (Table.put entries "start" start) "end" stop)
  let first ← (← start.item "line").number
  return { range := widened, first := first + 1, last := last + 2 }

/-- The options of the first formatter: the settings of the style checker that are set. -/
def formatterOptions (config : Config) (v : DocumentView) : Job (List (String × Value)) := do
  let settings ← Job.pluginSettings config "pycodestyle" (some v.document.path)
  let options ← [("exclude", "exclude"), ("hang_closing", "hangClosing"), ("ignore", "ignore"),
    ("max_line_length", "maxLineLength"), ("select", "select"), ("aggressive", "aggressive")].mapM
    fun (name, setting) => do return (name, ← Job.ofExcept (settings.getD setting .null))
  return options.filter fun o => o.2.truthy

/-- Puts the formatter's check in the place of the style checker's, which must be registered. -/
def lendChecks : Job Unit := do
  let bench ← get
  if bench.checks.own then set { bench with checks := { own := false, formatter := true } }
  else throw .checkMissing

/-- Puts the style checker's check back. -/
def returnChecks : Job Unit := modify fun b => { b with checks := { own := true, formatter := false } }

/-- The edits that turn a document into a new text: none where they are equal. -/
def editsTo (lines : Nat) (newText : String) (changed : Bool) : List Edit :=
  if changed then [wholeEdit lines newText] else []

/-- **Formats with the first formatter**, in whole lines `first` to `last` where they are given. -/
def formatWithAutopep8 (config : Config) (v : DocumentView) (span : Option (Int × Int)) : Job (List Edit) := do
  let options ← formatterOptions config v
  let options := match span with
    | some (first, last) => Table.put options "line_range" (.list [.int first, .int last])
    | none => options
  lendChecks
  let source ← v.text
  Job.note "autopep8.fix_code" [("options", .dict options)]
  let formatted ← Job.ofExcept (← Job.answers).autopep8
  returnChecks
  let newText := formatted.newText.getD source
  return editsTo (← v.lines).length newText (newText != source)

/-- **Formats with the second formatter.** -/
def formatWithYapf (v : DocumentView) (span : Option (Int × Int)) : Job (List Edit) := do
  let source ← v.text
  let lines := match span with
    | some (first, last) => .list [.list [.int first, .int last]]
    | none => .null
  let style := "style:" ++ Path.directoryOf v.document.path
  Job.note "yapf.FormatCode" [
    ("lines", lines), ("filename", .str v.document.fileName), ("style_config", .str style)]
  let formatted ← Job.ofExcept (← Job.answers).yapf
  return editsTo (← v.lines).length (formatted.newText.getD source) formatted.changed

/-- Edits as a value. -/
def editsValue (edits : List Edit) : Value := .list (edits.map Edit.toValue)

end EditorService.Feature
