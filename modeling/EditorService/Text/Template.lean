import EditorService.Value.Display
import EditorService.Value.Access

/-!
# Message templates

A template is a text with places for values: `%s` takes a value as plain text, `%r` as a reader sees it, `%d` a whole
number, and `%%` is a percent sign. Every value must be used, and every place must find one.
-/

namespace EditorService.Text

/-- **Fills a template with values.** The fault is that of a value that does not fit or is missing or left over. -/
def fillTemplate : List Char → List Value → Except Fault (List Char)
  | [], [] => .ok []
  | [], _ :: _ => .error .wrongType
  | '%' :: '%' :: rest, args => do return '%' :: (← fillTemplate rest args)
  | '%' :: 's' :: rest, arg :: args => do return arg.plain.toList ++ (← fillTemplate rest args)
  | '%' :: 'r' :: rest, arg :: args => do return arg.display.toList ++ (← fillTemplate rest args)
  | '%' :: 'd' :: rest, arg :: args => do
    let n ← arg.number
    return (toString n).toList ++ (← fillTemplate rest args)
  | '%' :: _, _ => .error .wrongType
  | c :: rest, args => do return c :: (← fillTemplate rest args)

end EditorService.Text
