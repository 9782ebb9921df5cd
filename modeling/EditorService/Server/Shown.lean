import EditorService.Server.State

/-!
# The state of the service as a value

What can be seen of the service from outside: its root, the folders with their open documents, the timers that are
armed, and whether the connection has ended.
-/

namespace EditorService

/-- A message as a value. -/
def Message.toValue : Message → Value
  | .notify method params => .dict [("kind", .str "notify"), ("method", .str method), ("params", params)]
  | .request method params => .dict [("kind", .str "request"), ("method", .str method), ("params", params)]
  | .endOfConnection => .dict [("kind", .str "endpoint_shutdown")]

/-- How many seconds pass until the process that started the service is looked after again. -/
def watchSeconds : Int := 10

/-- A timer as a value. -/
def Timer.toValue : Timer → Value
  | .lint uri saved => .dict [("lint", .str uri), ("is_saved", .bool saved)]
  | .watch pid => .dict [("watch", pid), ("seconds", .int watchSeconds)]

/-- A document's description as a value. -/
def Document.toValue (d : Document) : Value :=
  .dict [
    ("uri", .str d.uri), ("str", .str d.uri), ("version", d.version), ("path", .str d.path),
    ("dot_path", .str d.dottedName), ("filename", .str d.fileName), ("source", Value.ofText? d.source),
    ("extra_sys_path", Value.ofTexts d.searchPath)]

/-- **The open documents of a workspace**: their texts and versions. A text that cannot be read is null. -/
def Workspace.openDocuments (w : Workspace) (files : FileTree) : Value :=
  .dict (w.documents.map fun (uri, d) =>
    (uri, .dict [("source", Value.ofText? (d.text files).toOption), ("version", d.version)]))

/-- **The state of the service as a value.** -/
def Server.toValue (s : Server) : Value :=
  .dict [
    ("root_uri", Value.ofText? s.rootUri),
    ("workspace", Value.ofText? (s.rootWorkspace?.map (·.rootUri))),
    ("config", Value.ofText? (s.ownConfig?.map (·.rootUri))),
    ("workspaces", .dict (s.registered.map fun (uri, w) => (uri, w.openDocuments s.bench.host.files))),
    ("pending", .list (s.timers.armed.values.map Timer.toValue)),
    ("closed", .bool s.closed)]

end EditorService
