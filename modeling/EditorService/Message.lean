import EditorService.Protocol.Kind
import EditorService.Value

/-!
# Messages to the client

What the service tells the client of its own accord: diagnostics, texts to show, and edits to make. An edit is a
request, to which the client replies; the others are notifications.
-/

namespace EditorService

/-- **A message to the client**, or the end of the connection. -/
inductive Message where
  | notify (method : String) (params : Value)
  | request (method : String) (params : Value)
  | endOfConnection
  deriving DecidableEq, Repr

namespace Message

/-- **Publishes the diagnostics of a document.** -/
def publishDiagnostics (uri diagnostics : Value) : Message :=
  .notify "textDocument/publishDiagnostics" (.dict [("uri", uri), ("diagnostics", diagnostics)])

/-- **Asks the client to make an edit.** -/
def applyEdit (edit : Value) : Message := .request "workspace/applyEdit" (.dict [("edit", edit)])

/-- The kind of message that texts have where none is named. -/
def informationKind : Value := .int 3

/-- **Shows a text** of a kind. -/
def showText (text kind : Value) : Message :=
  .notify "window/showMessage" (.dict [("type", kind), ("message", text)])

end Message

end EditorService
