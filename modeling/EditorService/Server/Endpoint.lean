import EditorService.Server.Handle
import EditorService.Value.Json

/-!
# The endpoint

The endpoint takes messages from a client and writes replies. A message must name the version of the protocol, or it
is ignored. A message without a number is a notification and gets no reply. One with a number and a method is a
request; its reply carries the number and either the result or an error. After the end of the connection nothing is
read or written.
-/

namespace EditorService.Endpoint

/-- The version that every message names. -/
def version : Value := .str "2.0"

/-- The code of an error: the method is not known. -/
def methodNotFound : Int := -32601

/-- The code of an error: the handler failed. -/
def handlerFailed : Int := -32602

/-- A fault as one line: its label, and its message where there is one. -/
def faultLine (f : Fault) : String :=
  match f.message? with
  | none => f.label
  | some text => if text == "" then f.label else f.label ++ ": " ++ text

/-- **The reply to a request that was handled.** -/
def resultReply (id result : Value) : Value := .dict [("jsonrpc", version), ("id", id), ("result", result)]

/-- **The reply to a request that failed.** -/
def errorReply (id : Value) (code : Int) (message : String) : Value :=
  .dict [("jsonrpc", version), ("id", id), ("error", .dict [("code", .int code), ("message", .str message)])]

/-- Looks a method up by what a message names as its method. -/
def lookUp (s : Server) (method : Value) : Except Fault Service.Target :=
  match method with
  | .str name => Service.lookUp s name
  | _ => .error .memberMissing

/-- **Handles a request** and gives its reply. -/
def answer (s : Server) (id method params : Value) : Value × Server :=
  match lookUp s method with
  | .error .methodMissing => (errorReply id methodNotFound ("Method Not Found: " ++ method.plain), s)
  | .error f => (errorReply id handlerFailed (faultLine f), s)
  | .ok target =>
    match (Service.callTarget target params).perform s with
    | (.ok result, s) => (resultReply id result, s)
    | (.error f, s) => (errorReply id handlerFailed (faultLine f), s)

/-- **Takes one message**: the replies that it causes and the new state. -/
def take (s : Server) (message : Value) : List Value × Server :=
  if s.closed then ([], s)
  else
    match message with
    | .dict entries =>
      let params := (Table.get? entries "params").getD .null
      if Table.get? entries "jsonrpc" != some version then ([], s)
      else
        match Table.get? entries "id", Table.get? entries "method" with
        | none, some method => ([], (answer s .null method params).2)
        | some id, some method =>
          let (reply, s) := answer s id method params
          (if s.closed then [] else [reply], s)
        | _, none => ([], s)
    | _ => ([], s)

/-- Takes the body of a message; one that cannot be read is ignored. -/
def takeBody (s : Server) (body : String) : List Value × Server :=
  match Value.parse? body with
  | some message => take s message
  | none => ([], s)

/-- **Takes the bodies of messages in order**: all replies and the last state. -/
def takeAll (s : Server) : List String → List Value × Server
  | [] => ([], s)
  | body :: rest =>
    let (replies, s) := takeBody s body
    let (more, s) := takeAll s rest
    (replies ++ more, s)

/-- What serves a connection: this service, or something else. -/
inductive Handler where
  | service
  | other
  deriving DecidableEq, Repr

/-- **Serves one connection.** Only this service can. -/
def serve (handler : Handler) (s : Server) (bodies : List String) : Except Fault (List Value) × Server :=
  match handler with
  | .service =>
    let (replies, s) := takeAll s bodies
    (.ok replies, s)
  | .other => (.error .notAServer, s)

/-! ## Over the network -/

/-- The name of what handles a connection. -/
def handlerName : String := "PythonLanguageServer"

/-- A connection over the network: the bodies of its messages; a broken one cannot be read. -/
structure Connection where
  bodies : List String
  broken : Bool := false

/-- Serves a connection once the port is bound. -/
def serveBound (s : Server) (connection : Connection) : Service (List Value) := do
  Service.job (Job.note "server_activate" [])
  Service.job (Job.note "serve_forever" [])
  let (replies, served) := takeAll (← get) (if connection.broken then [] else connection.bodies)
  set served
  if s.watchesParent then Service.job (Job.note "server_shutdown" [])
  return replies

/-- **Serves one connection over the network.** The port is given back in any case. -/
def serveNetwork (handler : Handler) (host port : Value) (connection : Connection) : Service (List Value) := do
  if handler == .other then throw .notAServer
  Service.job (Job.note "TCPServer" [
    ("address", .list [host, port]), ("handler", .str (handlerName ++ "Handler")), ("bind_and_activate", .bool false)])
  Service.job (Job.note "server_bind" [("reuse", .bool true)])
  let s ← get
  match s.bench.host.answers.bind with
  | .error f =>
    Service.job (Job.note "server_close" [])
    throw f
  | .ok _ =>
    let replies ← serveBound s connection
    Service.job (Job.note "server_close" [])
    return replies

end EditorService.Endpoint
