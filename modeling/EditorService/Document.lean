import EditorService.Document.Change
import EditorService.FileTree.Search
import EditorService.Uri.FilePath

/-!
# Documents

A document is known by its URI. While it is open its text is the one the client sent; otherwise the text is on disk.
A document remembers the workspace it was opened in, and the extra directories in which its imports are looked up.
-/

namespace EditorService

/-- The number under which a workspace is kept. -/
abbrev WorkspaceId := Nat

/-- **A document.** -/
structure Document where
  uri : String
  version : Value := .null
  path : String
  dottedName : String
  fileName : String
  source : Option String := none
  searchPath : List String := []
  home : WorkspaceId
  deriving Repr

namespace Document

open EditorService.Protocol (Position)

/-- **A document at a URI.** Where the packages around its path do not end, neither does this. -/
def create (files : FileTree) (drives : Bool) (home : WorkspaceId) (uri : String) (source : Option String)
    (version : Value) (searchPath : List String) : Except Fault Document := do
  let path ← Uri.toPath drives uri
  let dottedName ← (files.dottedName? path).elim (throw .endless) pure
  return { uri, version, path, dottedName, fileName := Path.baseOf path, source, searchPath, home }

section

variable {files : FileTree} {drives : Bool} {home : WorkspaceId} {uri path : String} {source : Option String}
  {version : Value} {searchPath : List String}

/-- **When there is a document at a URI**: the URI names a path, and the packages around it end. -/
theorem create_eq_ok_iff {d : Document} :
    create files drives home uri source version searchPath = .ok d ↔
      ∃ path dottedName, Uri.toPath drives uri = .ok path ∧ files.dottedName? path = some dottedName ∧
        d = { uri, version, path, dottedName, fileName := Path.baseOf path, source, searchPath, home } := by
  simp only [create, Fault.bind_eq_ok]
  constructor
  · rintro ⟨path, hpath, dottedName, hname, hd⟩
    cases hdotted : files.dottedName? path with
    | none =>
      rw [hdotted] at hname
      cases hname
    | some name =>
      rw [hdotted] at hname
      cases hname
      exact ⟨path, dottedName, hpath, hdotted, (Except.ok.inj hd).symm⟩
  · rintro ⟨path, dottedName, hpath, hdotted, rfl⟩
    exact ⟨path, hpath, dottedName, by rw [hdotted]; rfl, rfl⟩

theorem create_of_endless (hpath : Uri.toPath drives uri = .ok path) (h : files.dottedName? path = none) :
    create files drives home uri source version searchPath = .error .endless := by
  rw [create, hpath]
  show ((files.dottedName? path).elim (Except.error Fault.endless) Except.ok >>= _) = _
  rw [h]
  rfl

end

/-- **The text of a document**: in memory, or on disk. -/
def text (d : Document) (files : FileTree) : Except Fault String :=
  match d.source with
  | some s => .ok s
  | none => files.read d.path

/-- The lines of a document, each with its break. -/
def lines (d : Document) (files : FileTree) : Except Fault (List (List Char)) := do
  return Text.lines (← d.text files).toList

/-- **A document after a change.** -/
def applyChange (d : Document) (files : FileTree) (change : Change) : Except Fault Document :=
  match change.range with
  | none => .ok { d with source := change.text }
  | some range => do
    let source ← d.text files
    match change.text with
    | some text =>
      return { d with source := some (String.ofList (replaceRange source.toList range text.toList)) }
    | none => throw .wrongType

/-- **How many characters stand in front of a position.** -/
def offsetAt (d : Document) (files : FileTree) (position : Value) : Except Fault Int := do
  let character ← (← position.item "character").number
  let lines ← d.lines files
  let line ← (← position.item "line").number
  return offsetOf lines line character

/-- **The word at a position.** A line past the end has none. -/
def wordAt (d : Document) (files : FileTree) (position : Value) : Except Fault String := do
  let line ← (← position.item "line").number
  let lines ← d.lines files
  if (lines.length : Int) ≤ line then return ""
  let l ← SignedIndex.get lines line
  let character ← (← position.item "character").number
  return String.ofList (wordAround l character)

/-- **A position as the analysis engine counts**: lines from one, and the column clipped. No position gives none. -/
def enginePosition (d : Document) (files : FileTree) (position : Value) : Except Fault (List (String × Value)) := do
  if !position.truthy then return []
  let line ← (← position.item "line").number
  let character ← position.item "character"
  let lines ← d.lines files
  let column ← clipColumn (← character.number) lines line
  return [("line", .int (line + 1)), ("column", .int column)]

end Document

end EditorService
