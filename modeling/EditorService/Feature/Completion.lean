import EditorService.Feature.Snippet
import EditorService.Feature.DocText
import EditorService.Protocol.Kind

/-!
# Completion

What may be written at the cursor, as the analysis engine sees it. Each item has a label, a kind, a detail, its
documentation, a text to sort by, and the text to insert. Where the editor understands snippets, a function comes with
its parameters, and a class is offered a second time as an object.
-/

namespace EditorService.Feature

open EditorService.Tool (Definition)
open EditorService.Protocol (CompletionItemKind InsertTextFormat)

/-- The kind of item that a kind of definition is. -/
def itemKinds : Table String CompletionItemKind :=
  [("none", .value), ("type", .classKind), ("tuple", .classKind), ("dict", .classKind), ("dictionary", .classKind),
   ("function", .function), ("lambda", .function), ("generator", .function), ("class", .classKind),
   ("instance", .reference), ("method", .method), ("builtin", .classKind), ("builtinfunction", .function),
   ("module", .module), ("file", .file), ("xrange", .classKind), ("slice", .classKind), ("traceback", .classKind),
   ("frame", .classKind), ("buffer", .classKind), ("dictproxy", .classKind), ("funcdef", .function),
   ("property", .property), ("import", .module), ("keyword", .keyword), ("constant", .variable),
   ("variable", .variable), ("value", .value), ("param", .variable), ("statement", .keyword)]

/-- A kind of item as a value; an unknown kind is null. -/
def kindValue (kind : Option CompletionItemKind) : Value := Value.ofInt? (kind.map fun k => (k.code : Int))

/-- The kind of item that the engine's definitions give; a path is plain text. -/
def itemKind? (kind : String) : Option CompletionItemKind :=
  if kind == "path" then some .text else Table.get? itemKinds kind

/-- The kinds of exception that derive directly from the common one. -/
def exceptionNames : List String :=
  ["TypeError", "StopAsyncIteration", "StopIteration", "ImportError", "OSError", "EOFError", "RuntimeError",
   "NameError", "AttributeError", "SyntaxError", "LookupError", "ValueError", "AssertionError", "ArithmeticError",
   "SystemError", "ReferenceError", "MemoryError", "BufferError", "Warning", "ExceptionGroup"]

/-- **Whether a name is that of an exception** which derives directly from the common one. -/
def isExceptionName (name : String) : Bool := exceptionNames.contains name

/-- The label: a function is shown with its parameters. -/
def itemLabel (d : Definition) : String :=
  match d.signatures with
  | s :: _ =>
    if d.kind == "function" || d.kind == "method" then
      d.name ++ "(" ++ Text.joined ", " (s.params.map (·.name)) ++ ")"
    else d.name
  | [] => d.name

/-- The detail: the full name of what is around the definition, or its own when that cannot be had. -/
def itemDetail (d : Definition) : Except Fault String :=
  match d.parent with
  | .ok (some p) => .ok (p.fullName.getD "")
  | .ok none => .ok (d.fullName.getD "")
  | .error (.tool .attribute _) => .ok (d.fullName.getD "")
  | .error f => .error f

/-- The text to sort by: hidden names come last. -/
def sortText (name : String) : String := if Text.hasPrefix "_" name then "z" ++ name else "a" ++ name

/-- A path as a text to insert: separators are escaped. -/
def pathText (name : String) : String :=
  Text.replaced "/" "\\/" (Text.replaced "\\" "\\\\" (Path.normalized name))

/-- The parameters that a call must give: no default, and no marker. -/
def positional (s : Definition) : List Definition :=
  s.params.filter fun p => !Text.contains ['='] p.description.toList && p.name != "/" && p.name != "*"

/-- One place of a snippet, numbered from one. -/
def snippetPlace (i : Nat) (p : Definition) : String := "$\x7b" ++ toString (i + 1) ++ ":" ++ p.name ++ "\x7d"

/-- The text to insert for a call with the given parameters, and whether it is a snippet. -/
def callText (name : String) (params : List Definition) : Bool × String :=
  match params with
  | [] => (false, name ++ "()")
  | [_] => (true, name ++ "($0)")
  | ps => (true, name ++ "(" ++ Text.joined ", " (ps.mapIdx snippetPlace) ++ ")$0")

/-- **One completion item.** -/
def completionItem (d : Definition) (withParams : Bool) : Except Fault (List (String × Value)) := do
  let detail ← itemDetail d
  let own := if d.kind == "path" then pathText d.name else d.name
  let (format, text) := match d.signatures with
    | s :: _ =>
      if withParams && !isExceptionName d.name then
        let (snippet, text) := callText d.name (positional s)
        (if snippet then [("insertTextFormat", Value.int InsertTextFormat.snippet.code)] else [], text)
      else ([], own)
    | [] => ([], own)
  return [
    ("label", .str (itemLabel d)),
    ("kind", kindValue (itemKind? d.kind)),
    ("detail", .str detail),
    ("documentation", .str (keepIndentation d.doc)),
    ("sortText", .str (sortText d.name)),
    ("insertText", .str text)] ++ format

/-- A class offered as an object. -/
def objectItem (d : Definition) : Except Fault (List (String × Value)) := do
  let item ← completionItem d false
  let item := Table.put item "kind" (.int CompletionItemKind.typeParameter.code)
  return Table.put item "label" (.str (itemLabel d ++ " object"))

/-- Whether the editor understands snippets. -/
def snippetSupport (capabilities : Value) : Except Fault Value := do
  let textDocument ← capabilities.getD "textDocument" (.dict [])
  let completion ← textDocument.getD "completion" (.dict [])
  let item ← completion.getD "completionItem" (.dict [])
  item.getD "snippetSupport" .null

/-- **Completion.** Nothing found is no answer. -/
def completions (config : Config) (v : DocumentView) (position : Value) : Job Value := do
  let settings ← Job.pluginSettings config "jedi_completion" (some v.document.path)
  let place ← v.enginePosition position
  let fuzzy ← Job.ofExcept (settings.getD "fuzzy" (.bool false))
  v.openInEngine .null true
  let found ← DocumentView.ask "complete" (Table.put place "fuzzy" fuzzy) (·.complete)
  if found.isEmpty then return .null
  let snippets ← Job.ofExcept (snippetSupport config.capabilities)
  let params ← Job.ofExcept (settings.getD "include_params" .null)
  let classes ← Job.ofExcept (settings.getD "include_class_objects" (.bool true))
  let withParams ← if snippets.truthy && params.truthy then mayUseSnippets v position else pure false
  let withObjects ← if snippets.truthy && classes.truthy then mayUseSnippets v position else pure false
  let items ← found.mapM fun d => Job.ofExcept (completionItem d withParams)
  let objects ←
    if withObjects then (found.filter (·.kind == "class")).mapM fun d => Job.ofExcept (objectItem d)
    else pure []
  return .list ((items ++ objects).map .dict)

end EditorService.Feature
