import EditorService.Text.Number
import EditorService.Text.Printable

/-!
# Quoted texts

A text as a reader sees it inside a message: between quotes, with what cannot be seen written as an escape. Single
quotes are used, unless the text holds a single quote and no double quote.
-/

namespace EditorService.Text

/-- One character inside quotes. -/
def quoteChar (quote c : Char) : List Char :=
  if c == quote || c == '\\' then ['\\', c]
  else if c == '\n' then ['\\', 'n']
  else if c == '\r' then ['\\', 'r']
  else if c == '\t' then ['\\', 't']
  else if isPrintable c then [c]
  else if c.toNat < 0x100 then ['\\', 'x'] ++ hexDigits 2 c.toNat
  else if c.toNat < 0x10000 then ['\\', 'u'] ++ hexDigits 4 c.toNat
  else ['\\', 'U'] ++ hexDigits 8 c.toNat

/-- The quote that needs fewer escapes. -/
def quoteFor (s : List Char) : Char := if s.contains '\'' && !s.contains '"' then '"' else '\''

/-- **A text between quotes.** -/
def quote (s : List Char) : List Char :=
  let q := quoteFor s
  q :: s.flatMap (quoteChar q) ++ [q]

/-- A `String` between quotes. -/
def quoted (s : String) : String := String.ofList (quote s.toList)

end EditorService.Text
