import EditorService.Server.Endpoint

/-!
# Frames

On a stream, the body of a message follows a header with its length in octets. Header lines end in a carriage return
and a line feed, and an empty line ends the header. Only the length is read from a header.
-/

namespace EditorService.Frame

/-- The name of the header line that gives the length. -/
def lengthName : String := "Content-Length: "

/-- The length that a header line gives, if it is the one that does. -/
def length? (line : String) : Option Nat := do
  let digits ← Text.dropPrefix? lengthName.toList line.toList
  let n ← Text.readInt? digits
  if 0 ≤ n then some n.toNat else none

/-- Whether a header line ends the header. -/
def isEnd (line : String) : Bool := Text.trimmed line == ""

/-- **A body in its frame.** -/
def frame (body : String) : String :=
  lengthName ++ toString body.utf8ByteSize ++ "\r\n" ++
    "Content-Type: application/vscode-jsonrpc; charset=utf8\r\n\r\n" ++ body

/-- A message of the service as a body. A request carries a number. -/
def ofMessage? (number : Nat) : Message → Option Value
  | .notify method params =>
    some (.dict [("jsonrpc", Endpoint.version), ("method", .str method), ("params", params)])
  | .request method params =>
    some (.dict [("jsonrpc", Endpoint.version), ("id", .int number), ("method", .str method), ("params", params)])
  | .endOfConnection => none

/-- **What is written after a message has been taken**: the replies, and then what the service sends once its timers
have expired. -/
def takeAndSettle (s : Server) (body : String) : List Value × Server :=
  let (replies, s) := Endpoint.takeBody s body
  let (_, s) := Service.fire s
  let sent := (s.sent.zipIdx 1).filterMap fun (m, n) => ofMessage? n m
  (replies ++ sent, { s with sent := [] })

end EditorService.Frame
