import EditorService.Feature.View

/-!
# Linters that run as processes

Such a linter reads the document from its input and writes its findings to its output. A program that cannot be
started is tried once more as a module of the interpreter.
-/

namespace EditorService.Lint

/-- Starts a program; one that is missing cannot be. -/
def startProgram (missing : List String) (program : Value) (args : List Value) : Job Unit := do
  Job.note "Popen" [("cmd", .list (program :: args))]
  match program with
  | .str name => if missing.contains name then throw (.fileMissing name)
  | _ => return

/-- **Runs a linter on a document** and gives its output. -/
def runLinter (v : DocumentView) (report : Tool.ProcessReport) (program : Value) (module : String)
    (args : List Value) : Job String := do
  tryCatch (startProgram report.missing program args) fun f =>
    match f with
    | .fileMissing _ => startProgram report.missing (.str "python") ([.str "-m", .str module] ++ args)
    | f => throw f
  let source ← v.text
  Job.note "communicate" [("stdin", .str source)]
  return report.output

end EditorService.Lint
