import EditorService.Feature.View
import EditorService.Lint.OutputLine

/-!
# The style checker

The checker gets the settings that are set as its options, and runs the checks that are registered. A finding is passed
over when its code is ignored or expected. It reaches to the end of its line; past the end of the document, it reaches to a
fixed column.
-/

namespace EditorService.Lint.Style

open EditorService.Protocol (Range Severity)

/-- The settings that become options, by the names of the options. -/
def optionNames : List (String × String) :=
  [("exclude", "exclude"), ("filename", "filename"), ("hang_closing", "hangClosing"), ("ignore", "ignore"),
   ("max_line_length", "maxLineLength"), ("select", "select")]

/-- The column up to which a finding past the end of the document reaches. -/
def columnPastEnd : Int := 100

/-- The severity of a code. -/
def severity (code : List Char) : Except Fault Severity :=
  match code with
  | [] => .error .textIndexRange
  | c :: _ => .ok (if c == 'E' || c == 'W' then .warning else .information)

/-- **The diagnostic of a finding**, unless it is passed over. Its code is the start of its text. -/
def diagnostic? (report : Tool.StyleReport) (lines : List (List Char)) (line column : Int) (text : String) :
    Except Fault (Option Diagnostic) := do
  let code := text.toList.take 4
  let name := String.ofList code
  if report.ignored.contains name || (report.expected.getD []).contains name then return none
  let stop ← if (lines.length : Int) < line then pure columnPastEnd else lineLength lines (line - 1)
  return some {
    source := "pycodestyle"
    range := Range.onLine (line - 1) column stop
    message := .str text
    code := some (.str name)
    severity := ← severity code }

/-- **The diagnostics of a report.** -/
def diagnostics (report : Tool.StyleReport) (lines : List (List Char)) : Except Fault (List Diagnostic) := do
  let found ← report.errors.mapM fun (line, column, text) => diagnostic? report lines line column text
  return found.filterMap fun d => d

/-- **Lints a document.** -/
def lint (v : View) : Job Value := do
  let config ← v.ownConfig
  let settings ← Job.pluginSettings config "pycodestyle" (some v.document.document.path)
  let options ← Job.ofExcept (optionNames.mapM fun (name, setting) => do return (name, ← settings.getD setting .null))
  Job.note "pycodestyle.StyleGuide" [("options", .dict (options.filter fun o => o.2.truthy))]
  let lines ← v.document.lines
  Job.note "pycodestyle.Checker" [
    ("filename", .str v.document.document.uri),
    ("lines", .list (lines.map fun l => .str (String.ofList l)))]
  let report := (← Job.answers).style (← get).checks
  let found ← Job.ofExcept (diagnostics report lines)
  return .list (found.map Diagnostic.toValue)

end EditorService.Lint.Style
