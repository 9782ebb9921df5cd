import EditorService.Fault
import EditorService.Text.Split
import EditorService.Text.Utf8
import EditorService.Uri.Host

/-!
# URIs

A URI has six parts: scheme, authority, path, parameters, query, fragment. `split` cuts a text into them as it stands;
`parse` also decodes each part. `assemble` puts encoded parts together, `render` encodes them first.

Decoding reads each maximal run of ASCII on its own: its percent escapes are octets, and the octets are read as UTF-8.
Encoding writes every octet that is not an unreserved character or `/` as a percent escape.
-/

namespace EditorService

/-- **The six parts of a URI.** -/
structure Uri where
  scheme : String := ""
  authority : String := ""
  path : String := ""
  parameters : String := ""
  query : String := ""
  fragment : String := ""
  deriving DecidableEq, Repr, Inhabited

namespace Uri

open EditorService.Text (startsWith splitFirst splitLast)

/-! ## Percent escapes -/

/-- The characters that an encoded part keeps. -/
def isKept (c : Char) : Bool :=
  c.isAlphanum || c == '_' || c == '.' || c == '-' || c == '~' || c == '/'

/-- A hexadecimal digit, capital. -/
def hexDigit (n : Nat) : Char := if n < 10 then Char.ofNat (48 + n) else Char.ofNat (55 + n)

/-- An octet as a percent escape. -/
def escapeOctet (b : UInt8) : List Char := ['%', hexDigit (b.toNat / 16), hexDigit (b.toNat % 16)]

/-- One character in encoded form. -/
def encodeChar (c : Char) : List Char := if isKept c then [c] else (Text.encode [c]).flatMap escapeOctet

/-- **Encodes a part.** -/
def encode (s : List Char) : List Char := s.flatMap encodeChar

/-- The octets of a run of ASCII, its escapes read. A percent sign without two digits stands for itself. -/
def octets : List Char → List UInt8
  | '%' :: a :: b :: rest =>
    match Text.hexValue? a, Text.hexValue? b with
    | some x, some y => UInt8.ofNat (x * 16 + y) :: octets rest
    | _, _ => 0x25 :: octets (a :: b :: rest)
  | c :: rest => UInt8.ofNat c.toNat :: octets rest
  | [] => []

/-- Decodes a text given the run of ASCII that was read before it, last character first. -/
def decodeAfter (run : List Char) : List Char → List Char
  | [] => Text.decodeLossy (octets run.reverse)
  | c :: rest =>
    if c.toNat < 128 then decodeAfter (c :: run) rest
    else Text.decodeLossy (octets run.reverse) ++ c :: decodeAfter [] rest

/-- **Decodes a part.** -/
def decode (s : List Char) : List Char := decodeAfter [] s

/-- A part, encoded. -/
def encoded (s : String) : String := String.ofList (encode s.toList)

/-- A part, decoded. -/
def decoded (s : String) : String := String.ofList (decode s.toList)

/-! ## Cutting a URI into its parts -/

/-- The schemes whose paths may carry parameters. -/
def schemesWithParameters : List String :=
  ["", "ftp", "hdl", "prospero", "http", "imap", "https", "shttp", "rtsp", "rtsps", "rtspu", "sip", "sips", "mms",
   "sftp", "tel"]

/-- The schemes that are always written with an authority. -/
def schemesWithAuthority : List String :=
  ["", "ftp", "http", "gopher", "nntp", "telnet", "imap", "wais", "file", "mms", "https", "shttp", "snews",
   "prospero", "rtsp", "rtsps", "rtspu", "rsync", "svn", "svn+ssh", "sftp", "nfs", "git", "git+ssh", "ws", "wss"]

/-- The characters of a scheme. -/
def isSchemeChar (c : Char) : Bool := c.isAlphanum || c == '+' || c == '-' || c == '.'

/-- A URI as it is read: leading controls and blanks dropped, tabs and line breaks taken out. -/
def cleaned (s : List Char) : List Char :=
  (s.dropWhile fun c => c.toNat ≤ 32).filter fun c => c != '\t' && c != '\r' && c != '\n'

/-- The scheme, in small letters, and the rest. -/
def cutScheme (s : List Char) : List Char × List Char :=
  match splitFirst ':' s with
  | (front, some rest) =>
    match front with
    | c :: _ => if c.isAlpha && front.all isSchemeChar then (front.map Char.toLower, rest) else ([], s)
    | [] => ([], s)
  | (_, none) => ([], s)

/-- The authority, when two separators announce one, and the rest. -/
def cutAuthority (s : List Char) : List Char × List Char :=
  match s with
  | '/' :: '/' :: rest =>
    let ends (c : Char) := c == '/' || c == '?' || c == '#'
    (rest.takeWhile fun c => !ends c, rest.dropWhile fun c => !ends c)
  | _ => ([], s)

/-- The characters that a compatibility reading turns into a delimiter. -/
def disguised : List Nat :=
  [0x2047, 0x2048, 0x2049, 0x2100, 0x2101, 0x2105, 0x2106, 0x2A74, 0xFE13, 0xFE16, 0xFE55, 0xFE56, 0xFE5F, 0xFE6B,
   0xFF03, 0xFF0F, 0xFF1A, 0xFF1F, 0xFF20]

/-- **Refuses an authority that cannot be one**: one bracket without the other, brackets around no address, or a
character that only looks harmless. -/
def checkAuthority (authority : List Char) : Except Fault Unit := do
  let opens := authority.contains '['
  let closes := authority.contains ']'
  if opens != closes then throw (.uri .unbalancedBrackets)
  if opens && closes then
    let after := ((splitFirst '[' authority).2.getD [])
    checkBracketed (splitFirst ']' after).1

/-- Refuses a disguised delimiter. -/
def checkDisguise (authority : List Char) : Except Fault Unit :=
  if authority.any fun c => disguised.contains c.toNat then
    .error (.uri (.disguisedDelimiter (String.ofList authority)))
  else .ok ()

/-- Cuts at the first `mark`; an absent mark leaves the second part empty. -/
def cutAt (mark : Char) (s : List Char) : List Char × List Char :=
  let cut := splitFirst mark s
  (cut.1, cut.2.getD [])

/-- The parameters: what follows the first semicolon of the last segment. -/
def cutParameters (path : List Char) : List Char × List Char :=
  match splitLast '/' path with
  | (some front, last) =>
    match splitFirst ';' last with
    | (before, some after) => (front ++ '/' :: before, after)
    | (_, none) => (path, [])
  | (none, last) =>
    match splitFirst ';' last with
    | (before, some after) => (before, after)
    | (_, none) => (path, [])

/-- **Cuts a URI into its parts**, as they stand. -/
def split (s : String) : Except Fault Uri := do
  let (scheme, rest) := cutScheme (cleaned s.toList)
  let (authority, rest) := cutAuthority rest
  checkAuthority authority
  let (rest, fragment) := cutAt '#' rest
  let (path, query) := cutAt '?' rest
  checkDisguise authority
  let scheme := String.ofList scheme
  let (path, parameters) := if schemesWithParameters.contains scheme then cutParameters path else (path, [])
  return {
    scheme
    authority := String.ofList authority
    path := String.ofList path
    parameters := String.ofList parameters
    query := String.ofList query
    fragment := String.ofList fragment }

/-- **Reads a URI**: its parts, decoded. -/
def parse (s : String) : Except Fault Uri := do
  let u ← split s
  return {
    scheme := decoded u.scheme
    authority := decoded u.authority
    path := decoded u.path
    parameters := decoded u.parameters
    query := decoded u.query
    fragment := decoded u.fragment }

/-! ## Putting the parts together -/

/-- Whether a path starts with a drive: a separator, a letter, a colon. -/
def hasDrive : List Char → Bool
  | '/' :: letter :: ':' :: _ => letter.isAlpha
  | _ => false

/-- A path, encoded; the colon of a drive stays. -/
def encodePath (path : List Char) : List Char :=
  if hasDrive path then path.take 3 ++ encode (path.drop 3) else encode path

/-- **Puts parts together** as they stand. -/
def assemble (u : Uri) : String :=
  let path := if u.parameters == "" then u.path else u.path ++ ";" ++ u.parameters
  let withAuthority :=
    u.authority != "" ||
      (u.scheme != "" && schemesWithAuthority.contains u.scheme && !Text.hasPrefix "//" path)
  let body :=
    if withAuthority then
      let path := if path != "" && !Text.hasPrefix "/" path then "/" ++ path else path
      "//" ++ u.authority ++ path
    else path
  let body := if u.scheme == "" then body else u.scheme ++ ":" ++ body
  let body := if u.query == "" then body else body ++ "?" ++ u.query
  if u.fragment == "" then body else body ++ "#" ++ u.fragment

/-- **Writes a URI** from decoded parts. -/
def render (u : Uri) : String :=
  assemble {
    scheme := encoded u.scheme
    authority := encoded u.authority
    path := String.ofList (encodePath u.path.toList)
    parameters := encoded u.parameters
    query := encoded u.query
    fragment := encoded u.fragment }

end Uri

end EditorService
