import EditorService.Server.Folders

/-!
# Starting the service

The first request tells the service its root. The service makes a configuration and a workspace for it, asks the
plugins for further dispatchers, and answers with what it can do.
-/

namespace EditorService.Service

open EditorService.Protocol (SyncKind)

/-- **What the service can do.** -/
def capabilities : Service Value := do
  let commands ← askForAll .commands none []
  let experimental ← ofExcept (combined (← askPlugins .experimentalCapabilities none []))
  return .dict [
    ("codeActionProvider", .bool true),
    ("codeLensProvider", .dict [("resolveProvider", .bool false)]),
    ("completionProvider", .dict [
      ("resolveProvider", .bool false), ("triggerCharacters", Value.ofTexts ["."])]),
    ("documentFormattingProvider", .bool true),
    ("documentHighlightProvider", .bool true),
    ("documentRangeFormattingProvider", .bool true),
    ("documentSymbolProvider", .bool true),
    ("definitionProvider", .bool true),
    ("executeCommandProvider", .dict [("commands", commands)]),
    ("hoverProvider", .bool true),
    ("referencesProvider", .bool true),
    ("renameProvider", .bool true),
    ("foldingRangeProvider", .bool true),
    ("signatureHelpProvider", .dict [("triggerCharacters", Value.ofTexts ["(", ",", "="])]),
    ("textDocumentSync", .dict [
      ("change", .int SyncKind.incremental.code),
      ("save", .dict [("includeText", .bool true)]),
      ("openClose", .bool true)]),
    ("workspace", .dict [("workspaceFolders", .dict [
      ("supported", .bool true), ("changeNotifications", .bool true)])]),
    ("experimental", experimental)]

/-- The URI of the root: the one that is given, or that of the path, or an empty one. -/
def rootOf (rootUri rootPath : Value) : Service String := do
  match rootUri with
  | .null =>
    match rootPath with
    | .null => return ""
    | path => do
      let path ← ofExcept path.text
      ofExcept (Uri.ofPath (← get).bench.host.drives path)
  | uri => ofExcept uri.text

/-- Makes the configuration and the workspace of the root. -/
def openRoot (rootUri : String) (initOptions processId capabilities : Value) : Service Unit := do
  modify fun s =>
    { s with
      folders := match s.rootUri with
        | some old => Table.erase s.folders old
        | none => s.folders
      rootUri := some rootUri }
  let c ← newConfig rootUri initOptions processId capabilities
  modify fun s => { s with config := some c.id }
  let w ← newWorkspace rootUri c.id
  modify fun s => { s with root := some w.id }
  register rootUri w

/-- **Starts the service** and answers with what it can do. -/
def start (params : List (String × Value)) : Service Value := do
  let param (name : String) : Value := (Table.get? params name).getD .null
  let rootUri ← rootOf (param "rootUri") (param "rootPath")
  let options := param "initializationOptions"
  let options := if options.truthy then options else .dict []
  let processId := param "processId"
  openRoot rootUri options processId ((Table.get? params "capabilities").getD (.dict []))
  let dispatchers ← askPlugins .dispatchers none []
  modify fun s => { s with dispatchers := (dispatchers.elements.toOption).getD [] }
  let _ ← askPlugins .start none []
  let s ← get
  if s.watchesParent && processId != .null && !s.watching then
    modify fun s => { s with watching := true }
    watchParent processId
  return .dict [("capabilities", ← capabilities)]

end EditorService.Service
