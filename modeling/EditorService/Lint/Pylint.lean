import EditorService.Lint.OutputLine
import EditorService.Value.Display
import EditorService.Lint.Process
import EditorService.Value.Json
import EditorService.Value.Read

/-!
# The linter pylint

The linter can run in two ways. As a process it reads the document from its input. Otherwise it reads the file from
disk, which makes sense only when the document has been saved; for a document that has not, the diagnostics of the
last run count.

A finding of a kind that is not known has the severity of the finding before it.
-/

namespace EditorService.Lint.Pylint

open EditorService.Protocol (Range Severity)

/-! ## As a process -/

/-- The severity that the first letter of a code stands for. -/
def severityOfCode (code : List Char) : Except Fault Severity :=
  match code with
  | [] => .error .textIndexRange
  | c :: _ =>
    if c == 'C' then .ok .information
    else if c == 'E' || c == 'F' then .ok .error
    else if c == 'R' then .ok .hint
    else if c == 'W' then .ok .warning
    else .error (.keyMissing (String.ofList [c]))

/-- **The diagnostic of one finding**; `stop` is the length of a line. -/
def diagnostic (lines : List (List Char)) (o : OutputLine) : Except Fault Diagnostic := do
  let line := (← OutputLine.number o.line) - 1
  let column ← OutputLine.number o.column
  let severity ← severityOfCode o.code
  let stop := (← lineLength lines line) - 1
  return {
    source := "pylint"
    code := some (.str (String.ofList o.code))
    range := Range.onLine line column stop
    message := .str (String.ofList o.message)
    severity }

/-- **Reads the linter's output.** -/
def parse (lines : List (List Char)) (output : List Char) : Except Fault (List Diagnostic) :=
  findings [':', ' '] (diagnostic lines) output

/-- The same for a document, whose lines are looked at only when there is a finding. -/
def parseFor (v : DocumentView) (output : String) : Job Value := do
  let files ← Job.files
  let found ← Job.ofExcept (findings [':', ' '] (fun o => do
    let _ ← OutputLine.number o.line
    let _ ← OutputLine.number o.column
    let _ ← severityOfCode o.code
    diagnostic (← v.document.lines files) o) output.toList)
  return .list (found.map Diagnostic.toValue)

/-! ## On the file -/

/-- The severity that a kind of finding stands for. -/
def severityOfKind? (kind : Value) : Option Severity :=
  match kind with
  | .str "convention" => some .information
  | .str "error" => some .error
  | .str "fatal" => some .error
  | .str "refactor" => some .hint
  | .str "warning" => some .warning
  | _ => none

/-- **The diagnostic of one entry of a report**, given the severity of the entry before. -/
def entryDiagnostic (lines : Except Fault (List (List Char))) (before : Option Severity) (entry : Value) :
    Except Fault (Diagnostic × Severity) := do
  let line := (← (← entry.item "line").number) - 1
  let column ← entry.item "column"
  let lines ← lines
  let stop ← if lines.isEmpty then pure 0 else lineLength lines line
  let kind ← entry.item "type"
  let symbol ← entry.item "symbol"
  let message ← entry.item "message"
  match severityOfKind? kind <|> before with
  | none => throw .nameUnset
  | some severity =>
    let code ← entry.item "message-id"
    return ({
      source := "pylint"
      range := Range.onLine line (column.numberOr 0) stop
      column := if column.number?.isSome then none else some column
      message := .str ("[" ++ symbol.plain ++ "] " ++ message.plain)
      severity
      code := some code }, severity)

/-- **The diagnostics of a report.** -/
def reportDiagnostics (lines : Except Fault (List (List Char))) (before : Option Severity) :
    List Value → Except Fault (List Diagnostic)
  | [] => .ok []
  | entry :: rest => do
    let (d, severity) ← entryDiagnostic lines before entry
    return d :: (← reportDiagnostics lines (some severity) rest)

/-- The path as the linter's command line takes it. -/
def commandPath (platform path : String) : String :=
  if Text.hasPrefix "win" platform then Text.replaced "\\" "/" path else path

/-- Keeps the diagnostics of a file. -/
def keepReport (path : String) (found : List Diagnostic) : Job Unit :=
  modify fun b => { b with reports := Table.put b.reports path found }

/-- **Lints the file of a document**, or repeats the last diagnostics when the document has not been saved. -/
def lintFile (v : DocumentView) (saved : Bool) (flags : String) : Job (List Diagnostic) := do
  let path := v.document.path
  if !saved then return (Table.get? (← get).reports path).getD []
  let host ← Job.host
  Job.note "pylint.py_run" [("command", .str (commandPath host.platform path ++ " -f json " ++ flags))]
  let output ← Job.ofExcept host.answers.pylint.inProcess
  if (Text.trim output.toList).isEmpty then
    keepReport path []
    return []
  match Value.parse? output with
  | none => throw .badJson
  | some report =>
    let found ← Job.ofExcept do reportDiagnostics (v.document.lines host.files) none (← report.elements)
    keepReport path found
    return found

/-- **Lints a document.** -/
def lint (v : View) (saved : Value) : Job Value := do
  let settings ← Job.pluginSettings v.config "pylint" none
  let program ← Job.ofExcept (settings.getD "executable" .null)
  let args ← Job.ofExcept (settings.getD "args" .null)
  if program.truthy then
    let flags ← match args with
      | .null => pure []
      | args => Job.ofExcept args.elements
    let answers ← Job.answers
    let place := [.str "--from-stdin", .str v.document.document.path]
    parseFor v.document (← runLinter v.document answers.pylint program "pylint" (flags ++ place))
  else
    let flags ← match args with
      | .null => pure ""
      | args => do pure (Text.joined " " (← Job.ofExcept args.texts))
    return .list ((← lintFile v.document saved.truthy flags).map Diagnostic.toValue)

end EditorService.Lint.Pylint
