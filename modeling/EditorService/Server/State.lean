import EditorService.Debounce
import EditorService.Message
import EditorService.Plugin.Answer
import EditorService.Liveness

/-!
# The state of the service

The service keeps configurations and workspaces under numbers, because several things refer to the same one: a
workspace refers to its configuration, a document to the workspace it was opened in, and the service to the workspace
and the configuration of its root. Numbers are never used twice.

`folders` lists the workspaces that are registered, by URI in order of registration. Lint requests wait in timers.
-/

namespace EditorService

/-- A timer that is armed. -/
inductive Timer where
  | lint (uri : String) (saved : Bool)
  | watch (pid : Value)
  deriving DecidableEq, Repr

/-- **The state of the service.** -/
structure Server where
  plugins : List Plugin := BuiltIn.all.map .builtIn
  sources : List Settings.Source := [.flake8, .pycodestyle]
  watchesParent : Bool := false
  bench : Bench := {}
  configs : Table ConfigId Config := []
  nextConfig : ConfigId := 0
  workspaces : Table WorkspaceId Workspace := []
  nextWorkspace : WorkspaceId := 0
  folders : Table String WorkspaceId := []
  config : Option ConfigId := none
  root : Option WorkspaceId := none
  rootUri : Option String := none
  dispatchers : List Value := []
  timers : Clock String Timer := {}
  watching : Bool := false
  stopped : Bool := false
  closed : Bool := false
  sent : List Message := []

/-- **A step of the service.** What it changed before a fault stays changed. -/
abbrev Service (α : Type) := ExceptT Fault (StateM Server) α

namespace Service

/-- Runs a step. -/
def perform {α : Type} (step : Service α) (s : Server) : Except Fault α × Server :=
  Id.run (StateT.run (ExceptT.run step) s)

/-- Does a job at the service's bench. -/
def job {α : Type} (j : Job α) : Service α := do
  let s ← get
  let (result, bench) := j.perform s.bench
  set { s with bench }
  match result with
  | .ok a => return a
  | .error f => throw f

/-- A step that does not look at the state. -/
def ofExcept {α : Type} (r : Except Fault α) : Service α :=
  match r with
  | .ok a => return a
  | .error f => throw f

/-- Something that must be there before the service can be asked for it. -/
def present {α : Type} : Option α → Service α
  | some a => return a
  | none => throw .memberMissing

/-- Sends a message. -/
def send (m : Message) : Service Unit := modify fun s => { s with sent := s.sent ++ [m] }

end Service

namespace Server

/-- The configuration under a number. -/
def configAt? (s : Server) (id : Option ConfigId) : Option Config := id.bind (Table.get? s.configs)

/-- The configuration of the service. -/
def ownConfig? (s : Server) : Option Config := s.configAt? s.config

/-- The workspace at the root. -/
def rootWorkspace? (s : Server) : Option Workspace := s.root.bind (Table.get? s.workspaces)

/-- The number of the workspace that a URI belongs to: that of the best folder, or else the root. -/
def workspaceIdOf? (s : Server) (uri : String) : Option WorkspaceId :=
  match Workspace.bestFolder uri s.folders.keys with
  | some folder => (Table.get? s.folders folder) <|> s.root
  | none => s.root

/-- **The workspace that a URI belongs to.** -/
def workspaceOf? (s : Server) (uri : String) : Option Workspace :=
  (s.workspaceIdOf? uri).bind (Table.get? s.workspaces)

/-- The registered workspaces in order. -/
def registered (s : Server) : List (String × Workspace) :=
  s.folders.filterMap fun (uri, id) => (Table.get? s.workspaces id).map fun w => (uri, w)

/-- The service with a workspace changed. -/
def putWorkspace (s : Server) (w : Workspace) : Server := { s with workspaces := Table.put s.workspaces w.id w }

/-- The service with a configuration changed. -/
def putConfig (s : Server) (c : Config) : Server := { s with configs := Table.put s.configs c.id c }

/-- A document together with the workspace and configuration it was opened under. -/
def documentView (s : Server) (d : Document) : DocumentView :=
  match Table.get? s.workspaces d.home with
  | some w => { document := d, config := s.configAt? w.config, rootPath := w.rootPath }
  | none => { document := d, config := none, rootPath := "" }

end Server

namespace Service

/-- **A new configuration.** -/
def newConfig (rootUri : String) (initOptions processId capabilities : Value) : Service Config := do
  let s ← get
  set { s with nextConfig := s.nextConfig + 1 }
  let c ← job (Config.create s.nextConfig rootUri initOptions processId capabilities s.sources s.plugins)
  modify (·.putConfig c)
  return c

/-- **Gives a configuration new settings of the client.** -/
def updateConfig (id : ConfigId) (client : Value) : Service Unit := do
  let s ← get
  let c ← present (s.configAt? (some id))
  let ((result, c), bench) := Id.run ((c.update client).run s.bench)
  set ({ s with bench }.putConfig c)
  ofExcept result

/-- **A new workspace**, not yet registered. -/
def newWorkspace (rootUri : String) (config : ConfigId) : Service Workspace := do
  let s ← get
  let w ← ofExcept (Workspace.create s.bench.host.drives s.nextWorkspace rootUri (some config))
  set { s with nextWorkspace := s.nextWorkspace + 1 }
  modify (·.putWorkspace w)
  return w

/-- Registers a workspace under a URI. -/
def register (uri : String) (w : Workspace) : Service Unit :=
  modify fun s => { s with folders := Table.put s.folders uri w.id }

/-- **Asks the plugins**, about a document or about none. -/
def askPlugins (hook : Hook) (uri : Option String) (arguments : List (String × Value)) : Service Value := do
  let s ← get
  let workspace := match uri with
    | some uri => s.workspaceOf? uri
    | none => s.rootWorkspace?
  let document ← match uri with
    | none => pure none
    | some "" => pure none
    | some uri => do
      let w ← present workspace
      pure (some (s.documentView (← ofExcept (w.document s.bench.host uri))))
  let config ← present s.ownConfig?
  let workspace ← present workspace
  job (Question.ask { hook, config, workspace, workspaceConfig := s.configAt? workspace.config, document, arguments })

/-- The same, with all items of all answers in one list. -/
def askForAll (hook : Hook) (uri : Option String) (arguments : List (String × Value)) : Service Value := do
  ofExcept (flattened (← askPlugins hook uri arguments))

end Service

end EditorService
