import EditorService.Server.Method
import EditorService.Server.Start

/-!
# Handling requests

Each method has its handler. A handler reads what it needs from the parameters, changes the state, asks the plugins,
and answers. What a handler did before a fault stays done.
-/

namespace EditorService.Service

/-- The parameters of a request, by name. -/
abbrev Params := List (String × Value)

/-- A parameter; one that is not given is null. -/
def param (params : Params) (name : String) : Value := (Table.get? params name).getD .null

/-- The document that the parameters are about. -/
def documentParam (params : Params) : Value := param params "textDocument"

/-- The URI of the document that the parameters are about. -/
def uriParam (params : Params) : Service String := ofExcept do (← (documentParam params).item "uri").text

/-- Refuses parameters other than the named ones. -/
def onlyParams (params : Params) (names : List String) : Service Unit := do
  if params.any fun p => !names.contains p.1 then throw .wrongType

/-! ## Documents -/

/-- **The client opened a document.** -/
def didOpen (params : Params) : Service Unit := do
  let uri ← uriParam params
  let w ← present ((← get).workspaceOf? uri)
  let document := documentParam params
  let source ← ofExcept do
    match ← document.item "text" with
    | .null => return none
    | text => return some (← text.text)
  let version ← ofExcept (document.getD "version" .null)
  let w ← ofExcept (w.openDocument (← get).bench.host uri source version)
  modify (·.putWorkspace w)
  let _ ← askPlugins .didOpen (some uri) []
  lintLater uri true

/-- One change of an open document. -/
def changeDocument (uri : String) (version change : Value) : Service Unit := do
  let w ← present ((← get).workspaceOf? uri)
  let w ← ofExcept (w.changeDocument (← get).bench.host.files uri change version)
  modify (·.putWorkspace w)

/-- **The client changed a document.** Changes are made in order; those before a fault stay. -/
def didChange (params : Params) : Service Unit := do
  let uri ← uriParam params
  let changes ← ofExcept (param params "contentChanges").elements
  let version ← ofExcept ((documentParam params).getD "version" .null)
  changes.forM (changeDocument uri version)
  lintLater uri false

/-- **The client closed a document.** -/
def didClose (params : Params) : Service Unit := do
  let uri ← uriParam params
  let w ← present ((← get).workspaceOf? uri)
  let w ← ofExcept (w.closeDocument uri)
  modify (·.putWorkspace w)

/-! ## Configuration and files -/

/-- Asks for all open documents of a workspace to be linted, but for those of a list. -/
def lintAll (w : Workspace) (except : List String) : Service Unit :=
  (w.documents.keys.filter fun uri => !except.contains uri).forM fun uri => lintLater uri false

/-- The client's settings for this service. -/
def ownSettings (settings : Value) : Service Value :=
  ofExcept ((if settings.truthy then settings else .dict []).getD "pyls" (.dict []))

/-- The configuration under which a document was opened. -/
def documentConfig (d : Document) : Service (Option ConfigId) := do
  return (Table.get? (← get).workspaces d.home).bind (·.config)

/-- Gives a workspace, and the documents that are open in it, new settings. -/
def updateWorkspace (w : Workspace) (settings : Value) : Service Unit := do
  updateConfig (← present w.config) (← ownSettings settings)
  w.documents.values.forM fun d => do
    updateConfig (← present (← documentConfig d)) (← ownSettings settings)

/-- **The client sent settings.** -/
def didChangeConfiguration (settings : Value) : Service Unit := do
  let config ← present (← get).config
  updateConfig config (← ownSettings settings)
  (← get).registered.forM fun (_, w) => do
    updateWorkspace w settings
    lintAll w []

/-- The endings of files whose change may change what linters find. -/
def sourceEndings : List String := [".py", ".pyi"]

/-- The endings of files that hold settings. -/
def settingsEndings : List String := ["pycodestyle.cfg", "setup.cfg", "tox.ini", ".flake8"]

/-- Whether a text has one of some endings. -/
def hasEnding (endings : List String) (s : String) : Bool := endings.any fun e => Text.hasSuffix e s

/-- The URI of a file that changed. -/
def changedUri (change : Value) : Except Fault String := do
  match ← change.item "uri" with
  | .str uri => return uri
  | _ => throw .memberMissing

/-- The URIs of the files that changed. -/
def changedUris (changes : Value) : Except Fault (List String) := do
  let changes ← if changes.truthy then changes.elements else pure []
  changes.mapM changedUri

/-- Whether files that hold settings are among those that changed. -/
def settingsChanged (uris : List String) : Bool :=
  uris.any fun uri => !hasEnding sourceEndings uri && hasEnding settingsEndings uri

/-- **Files changed on disk.** -/
def didChangeFiles (changes : Value) : Service Unit := do
  let uris ← ofExcept (changedUris changes)
  let sources := uris.filter (hasEnding sourceEndings)
  if settingsChanged uris then
    let _ ← present (← get).config
    job Job.forgetSettings
  if settingsChanged uris || !sources.isEmpty then
    (← get).registered.forM fun (_, w) => lintAll w sources

/-! ## Questions -/

/-- Asks a question about a position in a document. -/
def askAtPosition (hook : Hook) (params : Params) (arguments : List (String × Value)) : Service Value := do
  let uri ← uriParam params
  askPlugins hook (some uri) (("position", param params "position") :: arguments)

/-- The same, with all items in one list. -/
def askAtPositionForAll (hook : Hook) (params : Params) (arguments : List (String × Value)) : Service Value := do
  ofExcept (flattened (← askAtPosition hook params arguments))

/-- A value, or another one in the place of nothing. -/
def orElse (v otherwise : Value) : Value := if v.truthy then v else otherwise

/-- **Handles a request.** -/
def handle (method : Method) (params : Params) : Service Value := do
  match method with
  | .shutdown =>
    modify fun s => { s with stopped := true }
    return .null
  | .exit =>
    close
    return .null
  | .start => start params
  | .started =>
    let _ ← askPlugins .started none []
    return .null
  | .didOpen =>
    didOpen params
    return .null
  | .didChange =>
    didChange params
    return .null
  | .didSave =>
    lintLater (← uriParam params) true
    return .null
  | .didClose =>
    didClose params
    return .null
  | .codeAction =>
    askForAll .codeActions (some (← uriParam params))
      [("range", param params "range"), ("context", param params "context")]
  | .codeLens => askForAll .codeLens (some (← uriParam params)) []
  | .completion =>
    let items ← askAtPositionForAll .completions params []
    return .dict [("isIncomplete", .bool false), ("items", items)]
  | .definition => askAtPositionForAll .definitions params []
  | .documentHighlight => return orElse (← askAtPositionForAll .highlight params []) .null
  | .hover => return orElse (← askAtPosition .hover params []) (.dict [("contents", .str "")])
  | .documentSymbol => askForAll .symbols (some (← uriParam params)) []
  | .formatting => askPlugins .formatDocument (some (← uriParam params)) []
  | .rename => askAtPosition .rename params [("new_name", param params "newName")]
  | .foldingRange => askForAll .foldingRange (some (← uriParam params)) []
  | .rangeFormatting =>
    askPlugins .formatRange (some (← uriParam params)) [("range", param params "range")]
  | .references =>
    let included ← ofExcept ((param params "context").item "includeDeclaration")
    askAtPositionForAll .references params [("exclude_declaration", .bool !included.truthy)]
  | .signatureHelp => askAtPosition .signatureHelp params []
  | .didChangeConfiguration =>
    onlyParams params ["settings"]
    didChangeConfiguration (param params "settings")
    return .null
  | .didChangeFolders =>
    match param params "event" with
    | .null => return .null
    | event =>
      changeFolders event
      return .null
  | .didChangeFiles =>
    didChangeFiles (param params "changes")
    return .null
  | .executeCommand =>
    onlyParams params ["command", "arguments"]
    askPlugins .executeCommand none
      [("command", param params "command"), ("arguments", param params "arguments")]

/-! ## Dispatch -/

/-- What stands behind a method name: a handler of the service, or an entry of a dispatcher. -/
inductive Target where
  | own (method : Method)
  | further (entry : Value)

/-- The first dispatcher that knows a method. -/
def dispatched? (name : String) : List Value → Except Fault (Option Value)
  | [] => .ok none
  | .dict entries :: rest =>
    match Table.get? entries name with
    | some entry => .ok (some entry)
    | none => dispatched? name rest
  | _ :: _ => .error .wrongType

/-- **Looks a method up**, in the service first and then in the dispatchers. After a shutdown only the exit is left. -/
def lookUp (s : Server) (name : String) : Except Fault Target :=
  if s.stopped && name != "exit" then .error .methodMissing
  else
    match Method.ofName? name with
    | some method => .ok (.own method)
    | none => do
      match ← dispatched? name s.dispatchers with
      | some entry => return .further entry
      | none => throw .methodMissing

/-- **Calls what stands behind a method name.** Nothing in the place of parameters stands for none. -/
def callTarget (target : Target) (params : Value) : Service Value := do
  match target with
  | .own method =>
    if params.truthy then
      match params with
      | .dict entries => handle method entries
      | _ => throw .wrongType
    else handle method []
  | .further entry => return .dict [("handled", entry), ("params", params)]

/-- **Answers a request by the name of its method.** -/
def request (name : String) (params : Value) : Service Value := do
  callTarget (← ofExcept (lookUp (← get) name)) params

end EditorService.Service
