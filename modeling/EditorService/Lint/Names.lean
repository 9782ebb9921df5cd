import EditorService.Feature.View
import EditorService.Lint.OutputLine
import EditorService.Text.Template

/-!
# The checker of names

The checker reports events while it reads a document. Names that are not defined and statements in the wrong place are
errors, other findings are warnings.
-/

namespace EditorService.Lint.Names

open EditorService.Protocol (Range Severity)
open EditorService.Tool (NameEvent)

/-- The findings that are errors. -/
def errorKinds : List String :=
  ["UndefinedName", "UndefinedExport", "UndefinedLocal", "DuplicateArgument", "FutureFeatureNotDefined",
   "ReturnOutsideFunction", "YieldOutsideFunction", "ContinueOutsideLoop", "BreakOutsideLoop", "ContinueInFinally",
   "TwoStarredExpressions"]

/-- A number, or another one in the place of nothing. -/
def numberOr (otherwise : Int) (v : Value) : Except Fault Int := if v.truthy then v.number else .ok otherwise

/-- How long a piece of text or a collection is. -/
def lengthOf (v : Value) : Except Fault Int := do return (← v.elements).length

/-- **The diagnostic of an event.** -/
def diagnostic (lines : List (List Char)) : NameEvent → Except Fault Diagnostic
  | .unexpected message =>
    .ok { source := "pyflakes", range := Range.onLine 0 0 0, message, severity := .error }
  | .syntaxError message line offset text => do
    let line := (← numberOr 1 line) - 1
    let offset ← numberOr 0 offset
    let length ← lengthOf text
    return { source := "pyflakes", range := Range.onLine line offset (offset + length), message, severity := .error }
  | .flake kind line column message args => do
    let stop ← lineLength lines (line - 1)
    let text ← Text.fillTemplate message.toList args
    return {
      source := "pyflakes"
      range := Range.onLine (line - 1) column stop
      message := .str (String.ofList text)
      severity := if errorKinds.contains kind then .error else .warning }

/-- **Lints a document.** -/
def lint (v : DocumentView) : Job Value := do
  let lines ← v.lines
  Job.note "pyflakes.check" [("filename", .str v.document.path)]
  let found ← Job.ofExcept ((← Job.answers).names.mapM (diagnostic lines))
  return .list (found.map Diagnostic.toValue)

end EditorService.Lint.Names
