import EditorService.Feature.Completion

/-!
# The refactoring library

A second source of completions, and of renaming. The library works on a project at the root of a workspace.
-/

namespace EditorService.Feature

open EditorService.Tool (Proposal)

/-- **Opens the library's project** at the root of a workspace. The project is made anew each time that settings are
given; null settings go on with the project that is there. -/
def openProject (workspace : WorkspaceId) (rootPath : String) (settings : Value) : Job Unit := do
  if settings != .null || !(← get).projects.contains workspace then
    let folder ← Job.ofExcept (settings.getD "ropeFolder" .null)
    Job.note "rope.Project" [("root", .str rootPath), ("ropefolder", folder)]
    modify fun b => { b with projects := b.projects.insert workspace }
    let modules ← Job.ofExcept (settings.getD "extensionModules" (.list []))
    Job.note "rope.prefs.set" [("key", .str "extension_modules"), ("value", modules)]
    Job.note "rope.prefs.set" [("key", .str "ignore_syntax_errors"), ("value", .bool true)]
    Job.note "rope.prefs.set" [("key", .str "ignore_bad_imports"), ("value", .bool true)]
  Job.note "rope.validate" []

/-- The library's settings for a document. -/
def projectSettings (config : Config) (v : DocumentView) : Job Value := do
  let settings ← Job.settings config (.forPath (some v.document.path))
  Job.ofExcept (settings.getD "rope" (.dict []))

/-- Looks the document up in the project. -/
def lookUpResource (v : DocumentView) : Job Unit :=
  Job.note "rope.path_to_resource" [("path", .str v.document.path)]

/-- The text to sort a proposal by: hidden names last, built-in names before them. -/
def proposalSortText (p : Proposal) : String :=
  if Text.hasPrefix "_" p.name then "z" ++ p.name
  else if p.scope == some "builtin" then "y" ++ p.name
  else "a" ++ p.name

/-- A proposal as a completion item. -/
def proposalItem (p : Proposal) : Value :=
  .dict [
    ("label", .str p.name),
    ("kind", kindValue (p.kind.bind (Table.get? itemKinds))),
    ("detail", .str (p.scope.getD "" ++ " " ++ p.name)),
    ("documentation", .str (p.doc.getD "")),
    ("sortText", .str (proposalSortText p))]

/-- The position one character earlier, on the same line. -/
def oneBack (position : Value) : Except Fault Value := do
  let line ← position.item "line"
  let character ← (← position.item "character").number
  return .dict [("line", line), ("character", .int (max (character - 1) 0))]

/-- **Completions of the refactoring library.** It is not asked right after the word `import`. -/
def proposals (v : View) (position : Value) : Job Value := do
  let word ← v.document.wordAt (← Job.ofExcept (oneBack position))
  if word == "import" then return .null
  let offset ← v.document.offsetAt position
  let settings ← projectSettings v.config v.document
  openProject v.workspace.id v.workspace.rootPath settings
  openProject v.document.document.home v.document.rootPath settings
  lookUpResource v.document
  let _ ← v.document.text
  Job.note "rope.code_assist" [
    ("offset", .int offset), ("resource", .str v.document.document.path), ("maxfixes", .int 3)]
  match (← Job.answers).refactoring.proposals with
  | .error _ => return .list []
  | .ok [] => return .null
  | .ok found => return .list (found.map proposalItem)

end EditorService.Feature
