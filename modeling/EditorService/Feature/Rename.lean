import EditorService.Feature.Refactoring

/-!
# Renaming

A new name for what is under the cursor, everywhere. The analysis engine and the refactoring library both can do it.
Each names the files that change and their new text; the answer replaces each file as a whole.
-/

namespace EditorService.Feature

open EditorService.Protocol (Edit Range)

/-- The number of lines of a text. -/
def lineCount (s : String) : Nat := (Text.lines s.toList).length

/-- **The edit that replaces a whole text** of so many lines. -/
def wholeEdit (lines : Nat) (newText : String) : Edit := { range := Range.upToLine lines, newText }

/-- The change of one document: the version the client knows, when it is open, and one edit. -/
def documentChange (w : Workspace) (uri : String) (edit : Edit) : Value :=
  let version := match w.open? uri with
    | some d => d.version
    | none => .null
  .dict [
    ("textDocument", .dict [("uri", .str uri), ("version", version)]),
    ("edits", .list [edit.toValue])]

/-- The answer that lists all changes. -/
def changesValue (changes : List Value) : Value := .dict [("documentChanges", .list changes)]

/-- **Renaming by the analysis engine.** The engine may not be able to do it. -/
def renameByEngine (v : View) (position newName : Value) : Job Value := do
  let _ ← v.document.wordAt position
  let place ← v.document.enginePosition position
  v.document.openInEngine .null false
  let changed ← tryCatch (DocumentView.ask "rename" (Table.put place "new_name" newName) (·.rename)) fun f =>
    match f with
    | .tool .notImplemented _ => throw .renameUnsupported
    | f => throw f
  let drives := (← Job.host).drives
  let changes ← (Table.ofList changed).mapM fun (path, code) => do
    let uri ← Job.ofExcept (Uri.ofPath drives path)
    return documentChange v.workspace uri (wholeEdit (lineCount code) code)
  return changesValue changes

/-- **Renaming by the refactoring library.** -/
def renameByLibrary (v : View) (position newName : Value) : Job Value := do
  let settings ← projectSettings v.config v.document
  openProject v.workspace.id v.workspace.rootPath settings
  lookUpResource v.document
  let offset ← v.document.offsetAt position
  Job.note "rope.Rename" [("resource", .str v.document.document.path), ("offset", .int offset)]
  let _ ← v.document.wordAt position
  Job.note "rope.get_changes" [("new_name", newName), ("in_hierarchy", .bool true), ("docs", .bool true)]
  let changed ← Job.ofExcept (← Job.answers).refactoring.changes
  let drives := (← Job.host).drives
  let changes ← changed.mapM fun c => do
    let uri ← Job.ofExcept (Uri.ofPath drives c.path)
    return documentChange v.workspace uri (wholeEdit (lineCount c.contents) c.newContents)
  return changesValue changes

end EditorService.Feature
