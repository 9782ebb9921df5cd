import EditorService.Feature.Engine
import EditorService.Feature.DocText

/-!
# Hover

What the editor shows about the word under the pointer: the signature of that name and its documentation. A definition
that is the only one is shown even when its name is another, for an alias has the documentation of what it stands for.
-/

namespace EditorService.Feature

open EditorService.Tool (Definition)

/-- The definition to show: the only one, or else the first of the given name. -/
def chooseDefinition (definitions : List Definition) (word : String) : Option Definition :=
  match definitions with
  | [d] => some d
  | ds => ds.find? fun d => d.name == word

/-- What is shown of a definition. -/
def hoverContents (d : Definition) (word : String) : List Value :=
  let signature := ((d.signatures.find? fun s => s.name == word).map (·.text)).getD ""
  let doc := keepIndentation d.rawDoc
  (if signature == "" then [] else [.dict [("language", .str "python"), ("value", .str signature)]]) ++
  (if doc == "" then [] else [.str doc])

/-- **Hover.** -/
def hover (v : DocumentView) (position : Value) : Job Value := do
  let place ← v.enginePosition position
  v.openInEngine .null false
  let definitions ← DocumentView.ask "infer" place (·.infer)
  let word ← v.wordAt position
  let contents := match chooseDefinition definitions word with
    | some d => hoverContents d word
    | none => []
  return .dict [("contents", if contents.isEmpty then .str "" else .list contents)]

end EditorService.Feature
