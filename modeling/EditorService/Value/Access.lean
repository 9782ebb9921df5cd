import EditorService.Value
import EditorService.Fault
import EditorService.Text.Split

/-!
# Reading dynamic values

A reader of a value expects a shape. When the value has another one, the read stops with a fault that says which
expectation failed: a key that is missing, an operation that the value's kind does not have, or a kind that does not
fit.
-/

namespace EditorService.Value

/-- **The value at a key that must be present.** -/
def item (v : Value) (key : String) : Except Fault Value :=
  match v with
  | .dict entries =>
    match Table.get? entries key with
    | some x => .ok x
    | none => .error (.keyMissing key)
  | _ => .error .wrongType

/-- **The value at a key, or `otherwise` when the key is absent.** Only a dictionary can be asked. -/
def getD (v : Value) (key : String) (otherwise : Value) : Except Fault Value :=
  match v with
  | .dict entries => .ok ((Table.get? entries key).getD otherwise)
  | _ => .error .memberMissing

/-- The entries of a dictionary. -/
def entries (v : Value) : Except Fault (List (String × Value)) :=
  match v with
  | .dict entries => .ok entries
  | _ => .error .memberMissing

/-- **What a value yields when gone through**: the items of a list, the characters of a text, the keys of a
dictionary. -/
def elements (v : Value) : Except Fault (List Value) :=
  match v with
  | .list items => .ok items
  | .str s => .ok (s.toList.map fun c => .str c.toString)
  | .dict entries => .ok (entries.map fun e => .str e.1)
  | _ => .error .wrongType

/-- The text that a value is. -/
def text (v : Value) : Except Fault String :=
  match v with
  | .str s => .ok s
  | _ => .error .wrongType

/-- The whole number that a value is; a truth value is one too. -/
def number (v : Value) : Except Fault Int :=
  match v with
  | .int n => .ok n
  | .bool b => .ok (if b then 1 else 0)
  | _ => .error .wrongType

/-- Whether a value holds `key`: as a key of a dictionary, an item of a list, or a part of a text. -/
def holds (v : Value) (key : String) : Except Fault Bool :=
  match v with
  | .dict entries => .ok (Table.has entries key)
  | .list items => .ok (items.contains (.str key))
  | .str s => .ok (s.contains key)
  | _ => .error .wrongType

/-- The texts of a list that are to be glued together. -/
def texts (v : Value) : Except Fault (List String) := do (← v.elements).mapM text

/-- **A list of texts as one text with commas**; any other value stays as it is. -/
def listText (v : Value) : Except Fault Value :=
  match v with
  | .list _ => do return .str (Text.joined "," (← v.texts))
  | v => .ok v

/-- The value at a key of a dictionary, if there is one. -/
def field? (v : Value) (key : String) : Option Value :=
  match v with
  | .dict entries => Table.get? entries key
  | _ => none

end EditorService.Value
