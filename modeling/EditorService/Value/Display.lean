import EditorService.Value
import EditorService.Text.Quoted

/-!
# Values in messages

How a value reads inside a message. Texts are quoted, lists and dictionaries are written with their brackets, in
order, and null and the truth values have capital names. A text alone is shown as it is.
-/

namespace EditorService.Value

mutual

/-- **A value as a reader sees it.** -/
def display : Value → String
  | .null => "None"
  | .bool true => "True"
  | .bool false => "False"
  | .int n => toString n
  | .str s => Text.quoted s
  | .list items => "[" ++ displayItems items ++ "]"
  | .dict entries => "\x7b" ++ displayEntries entries ++ "\x7d"

/-- The items of a list, with commas between them. -/
def displayItems : List Value → String
  | [] => ""
  | [v] => display v
  | v :: next :: rest => display v ++ ", " ++ displayItems (next :: rest)

/-- The entries of a dictionary, with commas between them. -/
def displayEntries : List (String × Value) → String
  | [] => ""
  | [(k, v)] => Text.quoted k ++ ": " ++ display v
  | (k, v) :: next :: rest => Text.quoted k ++ ": " ++ display v ++ ", " ++ displayEntries (next :: rest)

end

/-- A value put into running text: a text stands as it is. -/
def plain : Value → String
  | .str s => s
  | v => display v

end EditorService.Value
