import EditorService.Job
import EditorService.Workspace
import EditorService.Config.Create

/-!
# What a feature sees

A feature answers a request about a document. It sees the configuration of the service, the workspace of the request
with its own configuration, and the document together with the workspace and configuration it was opened under; those
two need not be the same, for a document can move.
-/

namespace EditorService

/-- **A document with what it was opened under.** -/
structure DocumentView where
  document : Document
  config : Option Config
  rootPath : String

/-- **What a feature sees.** -/
structure View where
  config : Config
  workspace : Workspace
  workspaceConfig : Option Config
  document : DocumentView

namespace DocumentView

/-- The text of the document. -/
def text (v : DocumentView) : Job String := do Job.ofExcept (v.document.text (← Job.files))

/-- The lines of the document. -/
def lines (v : DocumentView) : Job (List (List Char)) := do Job.ofExcept (v.document.lines (← Job.files))

/-- The word at a position. -/
def wordAt (v : DocumentView) (position : Value) : Job String := do
  Job.ofExcept (v.document.wordAt (← Job.files) position)

/-- How many characters stand in front of a position. -/
def offsetAt (v : DocumentView) (position : Value) : Job Int := do
  Job.ofExcept (v.document.offsetAt (← Job.files) position)

/-- A position as the analysis engine counts. -/
def enginePosition (v : DocumentView) (position : Value) : Job (List (String × Value)) := do
  Job.ofExcept (v.document.enginePosition (← Job.files) position)

end DocumentView

/-- The configuration of the workspace; without one nothing can be asked of it. -/
def View.ownConfig (v : View) : Job Config :=
  match v.workspaceConfig with
  | some c => return c
  | none => throw .memberMissing

end EditorService
