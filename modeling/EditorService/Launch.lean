import EditorService.CommandLine
import EditorService.Server.Endpoint

/-!
# Launching the service

The command line decides where the log goes and how the service talks: over the network or over its standard streams.
Launching is a job: each step is written down.
-/

namespace EditorService.Launch

open EditorService.CommandLine (Options Exit)

/-- The form of a line in the log. -/
def logFormat : String := "%(asctime)s UTC - %(levelname)s - %(name)s - %(message)s"

/-- The size at which a log file is put aside. -/
def logSize : Int := 50 * 1024 * 1024

/-- How many old log files are kept. -/
def logCount : Int := 10

/-- The level from which on messages are logged. -/
def logLevel (verbosity : Nat) : Int := if verbosity == 0 then 30 else if verbosity == 1 then 20 else 10

/-- The name given, unless it is empty. -/
def given (name : Option String) : Option String := name.filter (· != "")

/-- **Sets the log up.** -/
def setUpLog (o : Options) : Job Unit := do
  match given o.logConfig with
  | some path =>
    match Value.parse? (← Job.ofExcept ((← Job.files).read path)) with
    | some value => Job.note "dictConfig" [("value", value)]
    | none => throw .badJson
  | none =>
    match given o.logFile with
    | some file =>
      Job.note "RotatingFileHandler" [
        ("filename", .str file),
        ("kwargs", .dict [
          ("mode", .str "a"), ("maxBytes", .int logSize), ("backupCount", .int logCount), ("encoding", .null),
          ("delay", .int 0)])]
    | none => Job.note "StreamHandler" []
    Job.note "addHandler" [("format", .str logFormat)]
  Job.note "setLevel" [("level", .int (logLevel o.verbosity))]

/-- Starts the service in the way that the options say. -/
def startService (o : Options) : Job Unit :=
  if o.tcp then
    Job.note "start_tcp" [
      ("host", .str o.host), ("port", .int o.port), ("check_parent_process", .bool o.checkParent),
      ("handler", .str Endpoint.handlerName)]
  else
    Job.note "start_io" [
      ("check_parent_process", .bool o.checkParent), ("handler", .str Endpoint.handlerName)]

/-- **Launches the service** by a command line, unless the command line ends it early. -/
def launch (arguments : List String) : Job (Except Exit Options) := do
  match CommandLine.parse arguments with
  | .error exit => return .error exit
  | .ok o =>
    setUpLog o
    startService o
    return .ok o

end EditorService.Launch
