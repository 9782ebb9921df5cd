import EditorService.Feature.View
import EditorService.Lint.OutputLine
import EditorService.Value.Display

/-!
# The complexity checker

A function whose complexity reaches the threshold is reported. The finding starts at the function and reaches as far
as the line after it is long.
-/

namespace EditorService.Lint.Complexity

open EditorService.Protocol (Range)

/-- The threshold that holds where the settings name none. -/
def defaultThreshold : Int := 15

/-- **The diagnostic of a function**, if its complexity reaches the threshold. -/
def diagnostic? (lines : Except Fault (List (List Char))) (threshold : Value) (f : Tool.Complexity) :
    Except Fault (Option Diagnostic) := do
  if f.complexity < (← threshold.number) then return none
  let stop ← lineLength (← lines) f.line
  return some {
    source := "mccabe"
    range := Range.onLine (f.line - 1) f.column stop
    message := .str ("Cyclomatic complexity too high: " ++ toString f.complexity ++ " (threshold " ++
      threshold.plain ++ ")")
    severity := .warning }

/-- **The diagnostics of a report.** -/
def diagnostics (lines : Except Fault (List (List Char))) (threshold : Value) (functions : List Tool.Complexity) :
    Except Fault (List Diagnostic) := do
  let found ← functions.mapM (diagnostic? lines threshold)
  return found.filterMap fun d => d

/-- **Lints a document.** One that cannot be compiled has no answer. -/
def lint (config : Config) (v : DocumentView) : Job Value := do
  let settings ← Job.pluginSettings config "mccabe" (some v.document.path)
  let threshold ← Job.ofExcept (settings.getD "threshold" (.int defaultThreshold))
  let _ ← v.text
  let report := (← Job.answers).complexity
  if report.syntaxError then return .null
  let found ← Job.ofExcept (diagnostics (v.document.lines (← Job.files)) threshold report.graphs)
  return .list (found.map Diagnostic.toValue)

end EditorService.Lint.Complexity
