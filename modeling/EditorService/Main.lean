import EditorService.Launch
import EditorService.Server.Frame

/-!
# The program

Reads the command line and serves a client on the standard streams until the client ends the connection or the input
ends. All that is decided, is decided by the library; this module reads and prints.
-/

namespace EditorService.Program

/-- Reads a header. Gives the length of the body, or nothing when the input has ended. -/
partial def readHeader (input : IO.FS.Stream) (length : Nat) : IO (Option Nat) := do
  let line ← input.getLine
  if line.isEmpty then return none
  else if Frame.isEnd line then return some length
  else readHeader input ((Frame.length? line).getD length)

/-- Reads a body of so many octets, or what is left of the input. -/
partial def readBody (input : IO.FS.Stream) (length : Nat) (sofar : ByteArray) : IO ByteArray := do
  if length ≤ sofar.size then return sofar
  let chunk ← input.read (length - sofar.size).toUSize
  if chunk.isEmpty then return sofar else readBody input length (sofar ++ chunk)

/-- Serves a client until the connection or the input ends. -/
partial def serve (input output : IO.FS.Stream) (s : Server) : IO Unit := do
  let some length ← readHeader input 0 | return
  let body ← readBody input length ByteArray.empty
  let (written, s) := Frame.takeAndSettle s (String.ofList (Text.decodeLossy body.toList))
  for v in written do output.putStr (Frame.frame v.render)
  output.flush
  if s.closed then return else serve input output s

/-- Runs the program. -/
def start (arguments : List String) : IO UInt32 := do
  match CommandLine.parse arguments with
  | .error exit =>
    if exit.code == 0 then IO.print CommandLine.help else IO.eprintln exit.message
    return exit.code.toUInt32
  | .ok options =>
    if options.tcp then
      IO.eprintln "this program serves the standard streams only"
      return 1
    serve (← IO.getStdin) (← IO.getStdout) { watchesParent := options.checkParent }
    return 0

end EditorService.Program

/-- **The program.** -/
def main (arguments : List String) : IO UInt32 := EditorService.Program.start arguments
