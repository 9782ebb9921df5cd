import EditorService.Uri

/-!
# URIs and file paths

A file URI names a path, and a path has a URI. On a system with drives the path is written with backslashes, a drive
letter is small, and two leading separators announce a host. `toPath` goes one way and `ofPath` the other.
-/

namespace EditorService.Uri

/-- A drive path without its leading separator, the letter made small. -/
def drivePath : List Char → List Char
  | '/' :: letter :: rest => letter.toLower :: rest
  | p => p

/-- The path that decoded parts name, with forward separators. -/
def pathOf (u : Uri) : List Char :=
  if u.authority != "" && u.path != "" && u.scheme == "file" then
    '/' :: '/' :: u.authority.toList ++ u.path.toList
  else if hasDrive u.path.toList then drivePath u.path.toList
  else u.path.toList

/-- **The file path of a URI.** `drives` says whether the system writes paths with backslashes. -/
def toPath (drives : Bool) (s : String) : Except Fault String := do
  let p := pathOf (← parse s)
  return String.ofList (if drives then p.map fun c => if c == '/' then '\\' else c else p)

/-- A drive letter made small, in a path that starts with a separator. -/
def lowerDrive (path : List Char) : List Char :=
  if hasDrive path then
    match path with
    | slash :: letter :: rest => slash :: letter.toLower :: rest
    | p => p
  else path

/-- A path that starts with a separator. -/
def rooted (path : List Char) : List Char := if path.head? == some '/' then path else '/' :: path

/-- **The path and authority of a file path.** A host must be followed by a separator. -/
def normalizePath (drives : Bool) (path : List Char) : Except Fault (List Char × List Char) :=
  let path := if drives then path.map fun c => if c == '\\' then '/' else c else path
  match path with
  | '/' :: '/' :: rest =>
    match Text.splitFirst '/' rest with
    | (host, some after) => .ok (lowerDrive ('/' :: after), host)
    | (_, none) => .error .textMissing
  | _ => .ok (lowerDrive (rooted path), [])

/-- **The URI of a file path.** -/
def ofPath (drives : Bool) (path : String) : Except Fault String := do
  let (path, authority) ← normalizePath drives path.toList
  return render { scheme := "file", authority := String.ofList authority, path := String.ofList path }

/-- The parts to put in the place of those of a URI; an absent or empty part stays as it was. -/
structure Replacement where
  scheme : Option String := none
  authority : Option String := none
  path : Option String := none
  parameters : Option String := none
  query : Option String := none
  fragment : Option String := none
  deriving DecidableEq, Repr

/-- A new part, unless it is absent or empty. -/
def orElse (new : Option String) (old : String) : String :=
  match new with
  | some s => if s == "" then old else s
  | none => old

/-- The new path; there must be one. -/
def newPath (drives : Bool) (path : Option String) : Except Fault (List Char) :=
  match path with
  | some p => (normalizePath drives p.toList).map (·.1)
  | none => .error (if drives then .memberMissing else .wrongType)

/-- **A URI with parts replaced.** The host that a new path may name is dropped. -/
def replaceParts (drives : Bool) (s : String) (r : Replacement) : Except Fault String := do
  let old ← parse s
  let path ← newPath drives r.path
  return render {
    scheme := orElse r.scheme old.scheme
    authority := orElse r.authority old.authority
    path := orElse (some (String.ofList path)) old.path
    parameters := orElse r.parameters old.parameters
    query := orElse r.query old.query
    fragment := orElse r.fragment old.fragment }

end EditorService.Uri
