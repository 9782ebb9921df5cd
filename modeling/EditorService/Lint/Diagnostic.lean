import EditorService.Protocol.Kind
import EditorService.Protocol.Range

/-!
# Diagnostics

A diagnostic says which linter found what, where, and how serious it is. Some linters name a code. A column that a linter
names is passed on as it is; where it is no number, it stands in `column` and not in the range.
-/

namespace EditorService.Lint

open EditorService.Protocol (Range Severity)

/-- **A diagnostic.** -/
structure Diagnostic where
  source : String
  range : Range
  message : Value
  severity : Severity
  code : Option Value := none
  column : Option Value := none
  deriving DecidableEq, Repr

namespace Diagnostic

/-- The range of a diagnostic as a dictionary. -/
def rangeValue (d : Diagnostic) : Value :=
  match d.column with
  | none => d.range.toValue
  | some column =>
    .dict [("start", .dict [("line", .int d.range.start.line), ("character", column)]), ("end", d.range.stop.toValue)]

/-- **A diagnostic as a dictionary.** -/
def toValue (d : Diagnostic) : Value :=
  .dict ([("source", .str d.source)] ++ (d.code.map fun c => ("code", c)).toList ++
    [("range", d.rangeValue), ("message", d.message), ("severity", .int d.severity.code)])

end Diagnostic

end EditorService.Lint
