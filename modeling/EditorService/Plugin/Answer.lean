import EditorService.Feature.Completion
import EditorService.Feature.Folding
import EditorService.Feature.Format
import EditorService.Feature.Hover
import EditorService.Feature.Location
import EditorService.Feature.Preload
import EditorService.Feature.Rename
import EditorService.Feature.Signature
import EditorService.Feature.Symbols
import EditorService.Lint.Complexity
import EditorService.Lint.Documentation
import EditorService.Lint.Flake8
import EditorService.Lint.Names
import EditorService.Lint.Pylint
import EditorService.Lint.Style

/-!
# Asking the plugins

A question is a hook together with what its implementations may look at. Every plugin that answers the hook is asked
in turn. Null is no answer. A hook either collects all answers or stops at the first.
-/

namespace EditorService

/-- **A question to the plugins.** -/
structure Question where
  hook : Hook
  config : Config
  workspace : Workspace
  workspaceConfig : Option Config
  document : Option DocumentView := none
  arguments : List (String × Value) := []

namespace Question

/-- An argument of a question; one that is not given is null. -/
def argument (q : Question) (name : String) : Value := (Table.get? q.arguments name).getD .null

/-- What the plugins see of the document that a question is about. -/
def view (q : Question) : Job View :=
  match q.document with
  | some document =>
    return { config := q.config, workspace := q.workspace, workspaceConfig := q.workspaceConfig, document }
  | none => throw .memberMissing

/-- A document as a plugin given as data sees it. -/
def shownDocument (d : Document) : Value :=
  .dict [("uri", .str d.uri), ("version", d.version), ("source", Value.ofText? d.source)]

/-- A parameter of the hook as a plugin given as data sees it. -/
def shownParameter (q : Question) (name : String) : Value :=
  if name == "config" then .str q.config.rootUri
  else if name == "workspace" then .str q.workspace.rootUri
  else if name == "document" then
    match q.document with
    | some v => shownDocument v.document
    | none => .null
  else q.argument name

/-- All parameters of the hook. -/
def shown (q : Question) : Value := .dict (q.hook.parameters.map fun p => (p, q.shownParameter p))

end Question

/-- The lines to format, when a range is given. -/
def spanOf (q : Question) : Job (Option (Int × Int)) := do
  if q.hook == .formatRange then
    let widened ← Job.ofExcept (Feature.widen (q.argument "range"))
    return some (widened.first, widened.last)
  else return none

/-- **The answer of a plugin that comes with the service.** -/
def BuiltIn.answer (b : BuiltIn) (q : Question) : Job Value := do
  if q.hook == .settings then return b.defaultSettings
  if b == .preload then return ← Feature.preload q.config
  let v ← q.view
  match b with
  | .autopep8 => return Feature.editsValue (← Feature.formatWithAutopep8 q.config v.document (← spanOf q))
  | .yapf => return Feature.editsValue (← Feature.formatWithYapf v.document (← spanOf q))
  | .flake8 => Lint.Flake8.lint v
  | .folding => Feature.folding v.document
  | .completion => Feature.completions q.config v.document (q.argument "position")
  | .definition => Feature.definitions q.config v.document (q.argument "position")
  | .highlight => Feature.highlights v.document (q.argument "position")
  | .hover => Feature.hover v.document (q.argument "position")
  | .references => Feature.references v.document (q.argument "position") false
  | .engineRename => Feature.renameByEngine v (q.argument "position") (q.argument "new_name")
  | .signatureHelp => Feature.signatureHelp v.document (q.argument "position")
  | .symbols => Feature.symbols q.config v.document
  | .mccabe => Lint.Complexity.lint q.config v.document
  | .preload => Feature.preload q.config
  | .pycodestyle => Lint.Style.lint v
  | .pydocstyle => Lint.Documentation.lint q.config v.document
  | .pyflakes => Lint.Names.lint v.document
  | .pylint => Lint.Pylint.lint v (q.argument "is_saved")
  | .ropeCompletion => Feature.proposals v (q.argument "position")
  | .ropeRename => Feature.renameByLibrary v (q.argument "position") (q.argument "new_name")

/-- **The answer of a plugin.** One given as data is asked with all parameters of the hook. -/
def Plugin.answer (p : Plugin) (q : Question) : Job Value :=
  match p with
  | .builtIn b => b.answer q
  | .custom c => do
    Job.note q.hook.name [("plugin", .str c.name), ("args", q.shown)]
    match Table.get? c.answers q.hook.name with
    | some a => Job.ofExcept a.result
    | none => return .null

/-- The first answer of some plugins, or null. -/
def firstAnswer (q : Question) : List Plugin → Job Value
  | [] => return .null
  | p :: rest => do
    match ← p.answer q with
    | .null => firstAnswer q rest
    | answer => return answer

/-- **What the plugins answer**, disabled ones left out: one answer, or the list of all. -/
def Question.ask (q : Question) : Job Value := do
  let plugins := q.config.plugins.implementations q.hook q.config.disabled
  if q.hook.firstResult then firstAnswer q plugins
  else return .list ((← plugins.mapM (·.answer q)).filter (· != .null))

/-- **All items of a collection of collections**, in order. -/
def flattened (v : Value) : Except Fault Value := do
  return .list ((← (← v.elements).mapM Value.elements).flatten)

/-- **All entries of a collection of dictionaries**; of two entries with one key the later counts. -/
def combined (v : Value) : Except Fault Value := do
  return .dict (Table.ofList (← (← v.elements).mapM Value.entries).flatten)

end EditorService
