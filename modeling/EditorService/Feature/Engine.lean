import EditorService.Feature.View
import EditorService.Value.Display

/-!
# Asking the analysis engine

The engine looks at a document in a project: a root, a list of directories to search, and an environment. The
environment comes from the settings. One that has been made for a workspace is kept and used again.

The variables of an environment never hold the search path of the interpreter: the engine refuses to start with it.
-/

namespace EditorService.DocumentView

/-- The variable that an environment must not hold. -/
def searchVariable : String := "PYTHONPATH"

/-- Variables without the one that must not be there. -/
def withoutSearchVariable (vars : Value) : Except Fault Value :=
  match vars with
  | .dict entries => .ok (.dict (Table.erase entries searchVariable))
  | .list _ => .error .wrongType
  | _ => .error .memberMissing

/-- What an environment is kept under: its path, where a truth value counts as the number it stands for. -/
def environmentKey : Value → Value
  | .bool b => .int (if b then 1 else 0)
  | path => path

/-- **The environment at a path**, made with `vars` unless the workspace has one already. What the engine does not make is
not kept. -/
def environmentAt (v : DocumentView) (path vars : Value) : Job Environment := do
  match path with
  | .list _ => throw .wrongType
  | .dict _ => throw .wrongType
  | _ =>
    let key := (v.document.home, environmentKey path)
    match Table.get? (← get).environments key with
    | some environment => return environment
    | none =>
      Job.note "jedi.create_environment" [("path", path), ("safe", .bool false), ("env_vars", vars)]
      Job.ofExcept ((← Job.answers).engine.environment path vars)
      let environment : Environment := { path := path.plain, vars }
      modify fun b => { b with environments := Table.put b.environments key environment }
      return environment

/-- **The directories that the engine searches**: the document's own, then those of the environment. -/
def searchPath (v : DocumentView) (path vars : Value) : Job (List Value) := do
  if path != .null then
    let _ ← v.environmentAt path vars
  return (v.document.searchPath ++ (← Job.answers).engine.searchPath).map .str

/-- What the settings say to the engine: the environment's path, further directories, and variables. -/
structure EngineSettings where
  environment : Value := .null
  directories : Value := .list []
  vars : Value := .null

/-- Reads the engine's settings for the document. -/
def engineSettings (v : DocumentView) : Job EngineSettings := do
  match v.config with
  | none => return {}
  | some config =>
    let settings ← Job.pluginSettings config "jedi" (some v.document.path)
    let environment ← Job.ofExcept (settings.getD "environment" .null)
    let directories ← Job.ofExcept (settings.getD "extra_paths" .null)
    let vars ← Job.ofExcept (settings.getD "env_vars" .null)
    return { environment, directories := if directories.truthy then directories else .list [], vars }

/-- **Opens the document in the engine.** `beside` adds the document's own directory to those that are searched. -/
def openInEngine (v : DocumentView) (position : Value) (beside : Bool) : Job Unit := do
  let s ← v.engineSettings
  let vars ← match s.vars with
    | .null => do pure (Value.dict ((← Job.host).environment.map fun e => (e.1, .str e.2)))
    | given => pure given
  let vars ← Job.ofExcept (withoutSearchVariable vars)
  let environment ←
    if s.environment.truthy then do
      let e ← v.environmentAt s.environment vars
      pure (Value.str ("env:" ++ e.path))
    else pure .null
  let searched ← v.searchPath s.environment vars
  let further ← match s.directories with
    | .list items => pure items
    | _ => throw .wrongType
  let own := if beside then [Value.str (Path.normalized (Path.directoryOf v.document.path))] else []
  let code ← v.text
  if position.truthy then
    let _ ← v.enginePosition position
    throw .wrongType
  Job.note "jedi.Script" [
    ("code", .str code),
    ("path", .str v.document.path),
    ("environment", environment),
    ("project", .dict [("path", .str v.rootPath), ("sys_path", .list (searched ++ further ++ own))])]

/-- **Puts a question to the engine** and gives its answer. -/
def ask {α : Type} (question : String) (args : List (String × Value)) (answer : Tool.Engine → Except Fault α) : Job α := do
  Job.note ("jedi." ++ question) [("args", .dict args)]
  Job.ofExcept (answer (← Job.answers).engine)

/-- The names that the document defines. -/
def namesIn (v : DocumentView) (beside allScopes definitions references : Value) : Job (List Tool.Definition) := do
  v.openInEngine .null beside.truthy
  ask "get_names" [("all_scopes", allScopes), ("definitions", definitions), ("references", references)] (·.names)

end EditorService.DocumentView
