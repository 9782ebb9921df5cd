import EditorService.Text.Blank
import EditorService.Text.Lines
import EditorService.Text.Split
import EditorService.Text.WordChar

/-!
# The documentation of a parameter

A documentation text may describe parameters one a line, in three manners: `:param name: text`, `@param name: text`,
and `name ...: text`. The first line that describes the parameter in any of them is the answer.
-/

namespace EditorService.Feature

open EditorService.Text

/-- The text after a colon: blanks in front are dropped, but one character must remain. -/
def described? (s : List Char) : Option (List Char) :=
  match trimStart s with
  | [] => s.getLast?.map fun c => [c]
  | text => some text

/-- A line with a marker, a name and a colon. -/
def marked? (marker line : List Char) : Option (List Char × List Char) := do
  let after ← dropPrefix? marker (trimStart line)
  let spaced := trimStart after
  if spaced.length == after.length then none
  let name := spaced.takeWhile isWordChar
  if name.isEmpty then none
  match spaced.dropWhile isWordChar with
  | ':' :: rest => return (name, ← described? rest)
  | _ => none

/-- What follows the last colon that has something after it. -/
def afterLastColon? : List Char → Option (List Char)
  | [] => none
  | c :: rest =>
    match afterLastColon? rest with
    | some found => some found
    | none => if c == ':' && !rest.isEmpty then some rest else none

/-- A line that starts with a name and has a colon further on. -/
def plain? (line : List Char) : Option (List Char × List Char) := do
  let line := trimStart line
  let name := line.takeWhile isWordChar
  if name.isEmpty then none
  let rest ← afterLastColon? (line.dropWhile isWordChar)
  return (name, ← described? rest)

/-- What a line says about a parameter, in the first manner that fits. -/
def lineDoc? (param line : List Char) : Option (List Char) :=
  let readings := [marked? ":param".toList line, marked? "@param".toList line, plain? line]
  (readings.filterMap fun r => r).findSome? fun r => if r.1 == param then some r.2 else none

/-- **What a documentation text says about a parameter.** -/
def paramDoc? (doc param : String) : Option String :=
  ((bareLines doc.toList).findSome? (lineDoc? param.toList)).map String.ofList

end EditorService.Feature
