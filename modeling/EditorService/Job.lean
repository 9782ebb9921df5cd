import EditorService.Host
import EditorService.Lint.Diagnostic
import EditorService.Settings.Cache

/-!
# Jobs

A job is a computation that may consult the outside tools. It reads the surroundings, writes down each request it
makes, and keeps what it learns for later: settings, environments of the analysis engine, projects of the refactoring
library, and the last diagnostics of a linter. It may stop with a fault; what it wrote down before stays.

Documents, workspaces and configurations are not part of a job's state. So no job changes them.
-/

namespace EditorService

/-- An environment of the analysis engine: where it is, and the variables it was made with. -/
structure Environment where
  path : String
  vars : Value
  deriving DecidableEq, Repr

/-- **What jobs keep.** -/
structure Bench where
  host : Host := {}
  calls : List Value := []
  settings : Settings.Cache := []
  environments : Table (Nat × Value) Environment := []
  projects : List Nat := []
  reports : Table String (List Lint.Diagnostic) := []
  checks : Tool.Checks := {}

/-- **A job.** -/
abbrev Job (α : Type) := ExceptT Fault (StateM Bench) α

namespace Job

/-- Runs a job on a bench. -/
def perform {α : Type} (job : Job α) (bench : Bench) : Except Fault α × Bench := Id.run (StateT.run (ExceptT.run job) bench)

/-- A job that does not need a bench. -/
def ofExcept {α : Type} (r : Except Fault α) : Job α :=
  match r with
  | .ok a => pure a
  | .error f => throw f

/-- The surroundings. -/
def host : Job Host := do return (← get).host

/-- The files. -/
def files : Job FileTree := do return (← host).files

/-- What the tools answer. -/
def answers : Job Tool.Answers := do return (← host).answers

/-- **Writes down a request** to an outside tool. -/
def note (fn : String) (args : List (String × Value)) : Job Unit :=
  modify fun b => { b with calls := b.calls ++ [.dict (("fn", .str fn) :: args)] }

/-- The settings of a configuration. -/
def settings (config : Config) (query : Settings.Query) : Job Value := do
  let bench ← get
  let (answer, cache) := Settings.cached bench.settings config bench.host query
  set { bench with settings := cache }
  ofExcept answer

/-- The settings of a plugin, for a document or for none. -/
def pluginSettings (config : Config) (plugin : String) (path : Option String) : Job Value := do
  let all ← settings config (.forPath path)
  let plugins ← ofExcept (all.getD "plugins" (.dict []))
  ofExcept (plugins.getD plugin (.dict []))

/-- Forgets all settings. -/
def forgetSettings : Job Unit := modify fun b => { b with settings := [] }

end Job

end EditorService
