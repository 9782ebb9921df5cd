import EditorService.Path
import EditorService.Table
import EditorService.Text.Lines
import EditorService.Text.Utf8

/-!
# Files

What the service knows of a file system: files with their content, empty directories, and the current directory. Every
directory on the way to a file exists. Paths are looked up by their text, brought into shortest form and seen from the
current directory; the empty path names nothing.

A disk does not look at the text of a path as a whole. It takes one segment after another, each in a directory that must
exist. Without links this makes one difference: `a/../b` leads to `b` by its text, but on a disk only if there is a
directory `a`. `onDisk` is the disk's own answer.

Texts are read as UTF-8, with every line break read as a line feed.
-/

namespace EditorService

/-- The content of a file: text, or octets that need not be text. -/
inductive FileContent where
  | text (s : String)
  | octets (bytes : List UInt8)
  deriving DecidableEq, Repr

/-- **A file system**: files by their absolute path, directories without a file, and the current directory. -/
structure FileTree where
  files : Table String FileContent := []
  directories : List String := []
  current : String := "/"
  deriving Repr, Inhabited

namespace FileTree

/-- The absolute path that a path names. Two leading separators are read as one. -/
def locate (t : FileTree) (path : String) : String :=
  match Path.absolute t.current.toList path.toList with
  | '/' :: '/' :: rest => String.ofList ('/' :: rest)
  | p => String.ofList p

/-- Whether `path` lies in the directory `dir`, at whatever depth. Both are absolute. -/
def within (dir path : String) : Bool :=
  if dir == "/" then path != "/" else Text.hasPrefix (dir ++ "/") path

/-- Whether a path names a file. -/
def isFile (t : FileTree) (path : String) : Bool := path != "" && Table.has t.files (t.locate path)

/-- **Whether a path names a directory**: the root, a listed one, or one on the way to a file or listed directory. -/
def isDirectory (t : FileTree) (path : String) : Bool :=
  let p := t.locate path
  path != "" && !Table.has t.files p &&
    (p == "/" || t.directories.any (fun d => d == p || within p d) || t.files.any fun f => within p f.1)

/-- **Whether a path names anything.** -/
def has (t : FileTree) (path : String) : Bool := t.isFile path || t.isDirectory path

/-- Whether the names from the root to a place lead to a directory. -/
def standing (t : FileTree) (place : List (List Char)) : Bool :=
  t.isDirectory (String.ofList ('/' :: Text.join ['/'] place))

/-- Whether segments can be taken one after another from a place on, each one in a directory that exists. -/
def passesFrom (t : FileTree) (place : List (List Char)) : List (List Char) → Bool
  | [] => true
  | s :: rest => t.standing place && t.passesFrom (Path.addSegment true place s) rest

/-- **Whether a disk can follow a path**, segment by segment: also two dots are taken in a directory that exists. -/
def passes (t : FileTree) (path : List Char) : Bool :=
  t.passesFrom [] (Text.split '/' (Path.append t.current.toList path))

/-- **Whether a path names anything on a disk**: the disk can follow it, to where its text says. -/
def onDisk (t : FileTree) (path : String) : Bool := t.has path && t.passes path.toList

/-- Whether a path names a directory on a disk. -/
def isDirectoryOnDisk (t : FileTree) (path : String) : Bool := t.isDirectory path && t.passes path.toList

/-- The text of a file's content, with line breaks unified. -/
def textOf : FileContent → Except Fault String
  | .text s => .ok (String.ofList (Text.unifyBreaks s.toList))
  | .octets bytes =>
    match Text.decode? bytes with
    | some s => .ok (String.ofList (Text.unifyBreaks s))
    | none => .error .badUtf8

/-- **Reads a file as text.** -/
def read (t : FileTree) (path : String) : Except Fault String :=
  if path == "" then .error (.fileMissing path)
  else match Table.get? t.files (t.locate path) with
    | some content => textOf content
    | none => if t.isDirectory path then .error (.isDirectory path) else .error (.fileMissing path)

/-- Puts a file at a path, whatever was there. -/
def put (t : FileTree) (path : String) (content : FileContent) : FileTree :=
  { t with files := Table.put t.files (t.locate path) content }

/-- Puts a file at a path, or an empty directory at one that ends in a separator. -/
def place (t : FileTree) (path : String) (content : FileContent) : FileTree :=
  if Text.hasSuffix "/" path then { t with directories := t.directories ++ [t.locate path] }
  else t.put path content

/-- Takes a file away. Its directory stays. -/
def erase (t : FileTree) (path : String) : FileTree :=
  let p := t.locate path
  if Table.has t.files p then
    { t with files := Table.erase t.files p, directories := t.directories ++ [Path.directoryOf p] }
  else t

/-- **Writes a text to a file** in a directory that exists. -/
def write (t : FileTree) (path text : String) : Except Fault FileTree :=
  if path == "" then .error (.fileMissing path)
  else if t.isDirectory path then .error (.isDirectory path)
  else if t.isDirectory (Path.directoryOf (t.locate path)) then .ok (t.put path (.text text))
  else .error (.fileMissing path)

/-- A content with a text added at its end. -/
def addText (text : String) : FileContent → FileContent
  | .text s => .text (s ++ text)
  | .octets bytes => .octets (bytes ++ Text.encode text.toList)

/-- **Adds a text at the end of a file**, which is made if need be. -/
def append (t : FileTree) (path text : String) : Except Fault FileTree :=
  match if t.isFile path then Table.get? t.files (t.locate path) else none with
  | some content => .ok (t.put path (addText text content))
  | none => t.write path text

/-- **Removes a file.** -/
def remove (t : FileTree) (path : String) : Except Fault FileTree :=
  if t.isFile path then .ok (t.erase path)
  else if t.isDirectory path then .error (.isDirectory path)
  else .error (.fileMissing path)

/-- **What changed between two states**: every file that is new or has another content, and every file that is gone. -/
def changes (before after : FileTree) : List (String × Option FileContent) :=
  (after.files.filter fun f => Table.get? before.files f.1 != some f.2).map (fun f => (f.1, some f.2)) ++
    (before.files.filter fun f => !Table.has after.files f.1).map fun f => (f.1, none)

end FileTree

end EditorService
