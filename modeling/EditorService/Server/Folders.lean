import EditorService.Server.Timers

/-!
# Folders of the service

The client opens and closes folders. Each folder is a workspace with a configuration of its own, which starts with the
settings that the service has. When the folder at the root is closed, another one becomes the root. Documents that are
open in the root then move to the folder that fits them best.
-/

namespace EditorService.Service

/-- Whether an entry of a folder event names a URI. -/
def namesFolder (entry : Value) : Service Bool := ofExcept (entry.holds "uri")

/-- The URI that an entry of a folder event names. -/
def folderUri (entry : Value) : Service String := ofExcept do (← entry.item "uri").text

/-- Closes a folder. What is no text names no folder; a list or a dictionary cannot be looked up at all. -/
def closeFolder : Value → Service Unit
  | .str uri => modify fun s => { s with folders := Table.erase s.folders uri }
  | .list _ => throw .wrongType
  | .dict _ => throw .wrongType
  | _ => return

/-- Closes the folders of a list. -/
def closeFolders (entries : List Value) : Service Unit :=
  entries.forM fun entry => do
    if ← namesFolder entry then closeFolder (← ofExcept (entry.item "uri"))

/-- **Opens a folder** with a configuration that starts like the one of the service. -/
def openFolder (uri : String) : Service Unit := do
  let own ← present (← get).ownConfig?
  let c ← newConfig uri own.initOptions own.processId own.capabilities
  updateConfig c.id own.client
  register uri (← newWorkspace uri c.id)

/-- Opens the folders of a list. -/
def openFolders (entries : List Value) : Service Unit :=
  entries.forM fun entry => do
    if ← namesFolder entry then openFolder (← folderUri entry)

/-- Whether the root is among the folders that were closed. -/
def closedRoot : List Value → Service Bool
  | [] => return false
  | entry :: rest => do
    let uri ← ofExcept (entry.item "uri")
    if (← get).rootUri.map Value.str == some uri then return true else closedRoot rest

/-- Makes the folder of a URI the root. -/
def moveRoot (uri : String) : Service Unit := do
  modify fun s => { s with rootUri := some uri }
  let s ← get
  match Table.get? s.folders uri with
  | none => throw (.keyMissing uri)
  | some id =>
    let w ← present (Table.get? s.workspaces id)
    modify fun s => { s with config := w.config, root := some id }

/-- The least of some texts. -/
def least? : List String → Option String
  | [] => none
  | a :: rest =>
    match least? rest with
    | some b => some (if b < a then b else a)
    | none => some a

/-- Moves one open document of the root to the folder that fits it best. -/
def moveDocument (uri : String) : Service Unit := do
  let root ← present (← get).rootWorkspace?
  match root.open? uri with
  | none => return
  | some d =>
    modify (·.putWorkspace { root with documents := Table.erase root.documents uri })
    let target ← present ((← get).workspaceOf? uri)
    modify (·.putWorkspace { target with documents := Table.put target.documents uri d })

/-- Moves all open documents of the root. -/
def moveDocuments : Service Unit := do
  let root ← present (← get).rootWorkspace?
  root.documents.keys.forM moveDocument

/-- The folders of one side of an event. -/
def eventFolders (event : Value) (side : String) : Service Value := ofExcept (event.getD side (.list []))

/-- The first folder that an event opens. -/
def firstOpened (added : List Value) : Service (Option String) := do
  match added with
  | [] => return none
  | entry :: _ => if ← namesFolder entry then return some (← folderUri entry) else return none

/-- Finds another root when the one there was is closed: the first folder that was opened, or else the least one. -/
def replaceRoot (added removed : List Value) : Service Unit := do
  let rootClosed ← closedRoot removed
  let first ← firstOpened added
  if rootClosed then
    match first <|> least? (← get).folders.keys with
    | some uri => moveRoot uri
    | none => return

/-- Closes and opens the folders of an event, and finds another root if need be. Documents stay where they are. -/
def arrangeFolders (event : Value) : Service Unit := do
  let added ← eventFolders event "added"
  let removed ← eventFolders event "removed"
  let removed ← ofExcept removed.elements
  closeFolders removed
  let added ← ofExcept added.elements
  openFolders added
  replaceRoot added removed

/-- **The client opened and closed folders.** -/
def changeFolders (event : Value) : Service Unit := do
  arrangeFolders event
  moveDocuments

end EditorService.Service
