import EditorService.Feature.Engine
import EditorService.Protocol.Kind

/-!
# Locations

Where a name is defined, where it is used, and where it is used in the document at hand. The engine's answer names a
file, a line from one and a column; the answer to the editor is a URI and the range of the name.
-/

namespace EditorService.Feature

open EditorService.Tool (Definition)
open EditorService.Protocol (Range HighlightKind)

/-- A location: a document and a range in it. -/
structure Location where
  uri : String
  range : Range
  deriving DecidableEq, Repr

/-- A location as a dictionary. -/
def Location.toValue (l : Location) : Value := .dict [("uri", .str l.uri), ("range", l.range.toValue)]

/-- The range of a definition's name. A definition without a place has none. -/
def nameRange (d : Definition) : Except Fault Range :=
  match d.line, d.column with
  | some line, some column => .ok (Range.onLine (line - 1) column (column + d.name.length))
  | _, _ => .error .wrongType

/-- The URI of a file that the engine names, written as the document's own URI is. -/
def uriOfFile (drives : Bool) (documentUri path : String) : Except Fault String :=
  Uri.replaceParts drives documentUri { path := some path }

/-- Whether a definition is in a file that can be shown. -/
def hasPlace (d : Definition) : Bool := d.line.isSome && d.column.isSome && d.modulePath.isSome && !d.isBuiltIn

/-- The location of a definition that names a file. -/
def locationIn (drives : Bool) (documentUri path : String) (d : Definition) : Except Fault Location := do
  let uri ← uriOfFile drives documentUri path
  return { uri, range := ← nameRange d }

/-- **Where a name is defined.** -/
def definitions (config : Config) (v : DocumentView) (position : Value) : Job Value := do
  let settings ← Job.pluginSettings config "jedi_definition" none
  let place ← v.enginePosition position
  v.openInEngine .null false
  let imports ← Job.ofExcept (settings.getD "follow_imports" (.bool true))
  let builtIns ← Job.ofExcept (settings.getD "follow_builtin_imports" (.bool true))
  let found ← DocumentView.ask "goto" ([("follow_imports", imports), ("follow_builtin_imports", builtIns)] ++ place)
    (·.goto)
  let drives := (← Job.host).drives
  let locations ← (found.filter fun d => d.isDefinition && hasPlace d).mapM fun d =>
    Job.ofExcept (locationIn drives v.document.uri (d.modulePath.getD "") d)
  return .list (locations.map Location.toValue)

/-- **Where a name is used.** A use without a file is in the document itself. -/
def references (v : DocumentView) (position : Value) (withoutDeclaration : Bool) : Job Value := do
  let place ← v.enginePosition position
  v.openInEngine .null false
  let found ← DocumentView.ask "get_references" place (·.references)
  let found := if withoutDeclaration then found.filter fun d => !d.isDefinition else found
  let drives := (← Job.host).drives
  let locations ← (found.filter fun d => !d.isBuiltIn).mapM fun d => Job.ofExcept do
    match d.modulePath with
    | some path =>
      if path == "" then return { uri := v.document.uri, range := ← nameRange d : Location }
      else locationIn drives v.document.uri path d
    | none => return { uri := v.document.uri, range := ← nameRange d : Location }
  return .list (locations.map Location.toValue)

/-- Whether a use is in the document itself. -/
def isLocal (v : DocumentView) (d : Definition) : Bool :=
  match d.modulePath with
  | some path => path == "" || path == v.document.path
  | none => true

/-- **Where a name is used in the document at hand**, and whether it is written there. -/
def highlights (v : DocumentView) (position : Value) : Job Value := do
  let place ← v.enginePosition position
  v.openInEngine .null false
  let found ← DocumentView.ask "get_references" place (·.references)
  let shown := found.filter fun d => d.line.isSome && d.column.isSome && isLocal v d
  let values ← shown.mapM fun d => Job.ofExcept do
    let kind : HighlightKind := if d.isDefinition then .write else .read
    return Value.dict [("range", (← nameRange d).toValue), ("kind", .int kind.code)]
  return .list values

end EditorService.Feature
