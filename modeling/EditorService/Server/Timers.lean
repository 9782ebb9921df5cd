import EditorService.Server.State

/-!
# Timers of the service

A request to lint a document arms a timer for its URI; a later request for the same URI takes its place. When the
timer expires, a document that is still open is linted and its diagnostics are published.

A second kind of timer watches the process that started the service. When that process is gone, the service ends.
-/

namespace EditorService.Service

/-- **Asks for a document to be linted.** -/
def lintLater (uri : String) (saved : Bool) : Service Unit :=
  modify fun s => { s with timers := s.timers.request uri (.lint uri saved) }

/-- **Lints a document** that is still open, and publishes what is found. -/
def lintNow (uri : String) (saved : Bool) : Service Unit := do
  let w ← present ((← get).workspaceOf? uri)
  if Table.has w.documents uri then
    let found ← askForAll .lint (some uri) [("is_saved", .bool saved)]
    send (.publishDiagnostics (.str uri) found)

/-- **Ends the connection.** -/
def close : Service Unit := do
  send .endOfConnection
  modify fun s => { s with closed := true }

/-- **Looks after the process that started the service**: looks again later, or ends. -/
def watchParent (pid : Value) : Service Unit := do
  if ← job (Liveness.isAlive pid) then modify fun s => { s with timers := s.timers.start (.watch pid) }
  else close

/-- A timer for a URI lets go of it. -/
def releaseTimer (uri : String) : Service Unit := do
  match (← get).timers.release? uri with
  | some timers => modify fun s => { s with timers }
  | none => throw (.keyMissing uri)

/-- What a timer does when it expires. -/
def goOff : Timer → Service Unit
  | .lint uri saved => do
    releaseTimer uri
    lintNow uri saved
  | .watch pid => watchParent pid

/-- **Lets a timer expire**, if it is still armed. -/
def expire (number : Nat) : Service Unit := do
  match Table.get? (← get).timers.armed number with
  | some t =>
    modify fun s => { s with timers := s.timers.stop number }
    goOff t
  | none => return

/-- Lets timers expire one after the other, and gives the faults of those that failed. -/
def expireAll (s : Server) : List Nat → List Fault × Server
  | [] => ([], s)
  | number :: rest =>
    let (result, s) := (expire number).perform s
    let (faults, s) := expireAll s rest
    match result with
    | .ok _ => (faults, s)
    | .error f => (f :: faults, s)

/-- **Lets all armed timers expire**, the oldest first. -/
def fire (s : Server) : List Fault × Server := expireAll s s.timers.armed.keys

end EditorService.Service
