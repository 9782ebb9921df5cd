import EditorService.Feature.View
import EditorService.Lint.OutputLine
import EditorService.Text.Pattern.Parser

/-!
# The documentation checker

Only files whose name and directory match two patterns are checked. The options come from the settings: a convention
with codes to add or to leave out, or codes to select, or codes to ignore. Every finding is drawn as wide as the first
line of the document.
-/

namespace EditorService.Lint.Documentation

open EditorService.Protocol (Range)

/-- The names of files that are checked, where the settings say nothing. -/
def defaultMatch : String := "(?!test_).*\\.py"

/-- The names of directories that are checked, where the settings say nothing. -/
def defaultMatchDirectory : String := "[^\\.].*"

/-- Whether a pattern of the settings matches a whole name. -/
def matchesName (pattern : Value) (name : String) : Except Fault Bool := do
  match Text.Pattern.parse? ((← pattern.text) ++ "$").toList with
  | some p => return p.matchesFront name.toList
  | none => throw .badPattern

/-- An argument that lists codes, where a setting gives some. -/
def codesArgument (settings : Value) (option setting : String) : Except Fault (List String) := do
  let codes ← settings.getD setting .null
  if codes.truthy then return [option ++ Text.joined "," (← codes.texts)] else return []

/-- **The arguments of the checker.** -/
def arguments (settings : Value) (path : String) : Except Fault (List String) := do
  let convention ← settings.getD "convention" .null
  if convention.truthy then
    let convention := "--convention=" ++ (← convention.text)
    let added ← codesArgument settings "--add-select=" "addSelect"
    let left ← codesArgument settings "--add-ignore=" "addIgnore"
    return path :: convention :: (added ++ left)
  let selected ← codesArgument settings "--select=" "select"
  if !selected.isEmpty then return path :: selected
  return path :: (← codesArgument settings "--ignore=" "ignore")

/-- **The diagnostic of a finding.** -/
def diagnostic (lines : List (List Char)) (e : Tool.DocumentationError) : Diagnostic :=
  let first := lines.headD []
  { source := "pydocstyle"
    code := some (.str e.code)
    message := .str e.message
    severity := .warning
    range := Range.onLine (e.line - 1) (first.length - (Text.trimStart first).length) first.length }

/-- The diagnostics of one file: the findings whose codes are checked there. -/
def fileDiagnostics (lines : List (List Char)) (errors : List Tool.DocumentationError)
    (file : Tool.DocumentationFile) : List Diagnostic :=
  (errors.filter fun e => file.codes.contains e.code).map (diagnostic lines)

/-- **Lints a document.** -/
def lint (config : Config) (v : DocumentView) : Job Value := do
  let path := v.document.path
  let settings ← Job.pluginSettings config "pydocstyle" (some path)
  let pattern ← Job.ofExcept (settings.getD "match" (.str defaultMatch))
  if !(← Job.ofExcept (matchesName pattern (Path.baseOf path))) then return .list []
  let pattern ← Job.ofExcept (settings.getD "matchDir" (.str defaultMatchDirectory))
  if !(← Job.ofExcept (matchesName pattern (Path.baseOf (Path.directoryOf path)))) then return .list []
  let args ← Job.ofExcept (arguments settings path)
  Job.note "pydocstyle.parse" [("argv", Value.ofTexts args)]
  let report := (← Job.answers).documentation
  let found ← report.files.mapM fun file => do
    let _ ← v.text
    Job.note "pydocstyle.check_source" [
      ("filename", .str file.name), ("ignore_decorators", file.ignoreDecorators)]
    return fileDiagnostics (← v.lines) report.errors file
  return .list (found.flatten.map Diagnostic.toValue)

end EditorService.Lint.Documentation
