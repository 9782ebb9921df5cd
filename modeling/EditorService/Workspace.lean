import EditorService.Document
import EditorService.Config
import EditorService.Workspace.Folder

/-!
# Workspaces

A workspace is a folder that is open in the editor: its root, the configuration that governs it, and the documents
that are open in it. A document that is not open can still be asked for; it is then read from disk.
-/

namespace EditorService

/-- **A workspace.** -/
structure Workspace where
  id : WorkspaceId
  rootUri : String
  rootPath : String
  scheme : String
  config : Option ConfigId := none
  documents : Table String Document := []

namespace Workspace

/-- **A workspace at a root**, without documents. -/
def create (drives : Bool) (id : WorkspaceId) (rootUri : String) (config : Option ConfigId) :
    Except Fault Workspace := do
  let scheme := (← Uri.parse rootUri).scheme
  let rootPath ← Uri.toPath drives rootUri
  return { id, rootUri, rootPath, scheme, config }

/-- Whether a workspace is on this machine. -/
def isLocal (w : Workspace) (files : FileTree) : Bool :=
  (w.scheme == "" || w.scheme == "file") && files.has w.rootPath

/-- **The directories in which a document's imports are looked up**: the nearest one that holds a project file, or
else the root. Which paths name something is a parameter. -/
def sourceRootsWhere (w : Workspace) (there : String → Bool) (path : String) : Except Fault (List String) := do
  let found ← Search.findParents there w.rootPath path ["setup.py", "pyproject.toml"]
  let roots := (found.map Path.directoryOf).eraseDups
  return if roots.isEmpty then [w.rootPath] else roots

/-- The directories in which a document's imports are looked up, among some files. -/
abbrev sourceRoots (w : Workspace) (files : FileTree) : String → Except Fault (List String) :=
  w.sourceRootsWhere files.has

/-- A document of this workspace. -/
def newDocument (w : Workspace) (host : Host) (uri : String) (source : Option String) (version : Value) :
    Except Fault Document := do
  let path ← Uri.toPath host.drives uri
  let roots ← w.sourceRoots host.files path
  Document.create host.files host.drives w.id uri source version roots

/-- The open document at a URI. -/
def open? (w : Workspace) (uri : String) : Option Document := Table.get? w.documents uri

/-- **The document at a URI**: the open one, or else the one on disk. -/
def document (w : Workspace) (host : Host) (uri : String) : Except Fault Document :=
  match w.open? uri with
  | some d => .ok d
  | none => w.newDocument host uri none .null

/-- **Opens a document**, or opens it anew. -/
def openDocument (w : Workspace) (host : Host) (uri : String) (source : Option String) (version : Value) :
    Except Fault Workspace := do
  let d ← w.newDocument host uri source version
  return { w with documents := Table.put w.documents uri d }

/-- **Closes a document** that is open. -/
def closeDocument (w : Workspace) (uri : String) : Except Fault Workspace :=
  if Table.has w.documents uri then .ok { w with documents := Table.erase w.documents uri }
  else .error (.keyMissing uri)

/-- **Changes a document** that is open, and sets its version. -/
def changeDocument (w : Workspace) (files : FileTree) (uri : String) (change : Value) (version : Value) :
    Except Fault Workspace :=
  match w.open? uri with
  | none => .error (.keyMissing uri)
  | some d => do
    let d ← d.applyChange files (← Document.Change.ofValue change)
    return { w with documents := Table.put w.documents uri { d with version } }

end Workspace

end EditorService
