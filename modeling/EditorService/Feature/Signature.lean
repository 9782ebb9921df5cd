import EditorService.Feature.Engine
import EditorService.Feature.DocText
import EditorService.Feature.ParamDoc

/-!
# Signature help

What the editor shows inside a call: the signature of the function, its documentation, its parameters, and which of
them is being written.
-/

namespace EditorService.Feature

open EditorService.Tool (Definition)

/-- What stands before the first empty line. -/
def firstParagraph : List Char → List Char
  | '\n' :: '\n' :: _ => []
  | c :: rest => c :: firstParagraph rest
  | [] => []

/-- The signature on one line: the first paragraph of the documentation, its lines trimmed and put together. -/
def signatureLabel (doc : String) : String :=
  String.ofList (Text.join [' '] ((Text.bareLines (firstParagraph doc.toList)).map Text.trim))

/-- A parameter, with what the documentation says about it. -/
def parameterValue (doc : String) (p : Definition) : Value :=
  .dict [("label", .str p.name), ("documentation", Value.ofText? (paramDoc? doc p.name))]

/-- The help for one signature. -/
def signatureValue (s : Definition) : Value :=
  let parameters := if s.params.isEmpty then [] else [("parameters", Value.list (s.params.map (parameterValue s.doc)))]
  .dict ([("label", .str (signatureLabel s.doc)), ("documentation", .str (keepIndentation s.rawDoc))] ++ parameters)

/-- **Signature help.** Only one signature is shown. -/
def signatureHelp (v : DocumentView) (position : Value) : Job Value := do
  let place ← v.enginePosition position
  v.openInEngine .null false
  let signatures ← DocumentView.ask "get_signatures" place (·.signatures)
  match signatures with
  | [] => return .dict [("signatures", .list [])]
  | s :: _ =>
    let active := match s.index with
      | some n => if s.params.isEmpty then [] else [("activeParameter", Value.int n)]
      | none => []
    return .dict ([("signatures", .list [signatureValue s]), ("activeSignature", .int 0)] ++ active)

end EditorService.Feature
