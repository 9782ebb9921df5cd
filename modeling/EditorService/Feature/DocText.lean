import EditorService.Text.Split

/-!
# Documentation texts

Editors show documentation as markup, which would swallow indentation. A tab is written as four hard spaces, and every
pair of spaces as two.
-/

namespace EditorService.Feature

/-- A space that markup keeps. -/
def hardSpace : Char := Char.ofNat 0xA0

/-- **A documentation text with its indentation kept.** -/
def keepIndentation (s : String) : String :=
  let s := Text.replace ['\t'] (List.replicate 4 hardSpace) s.toList
  String.ofList (Text.replace [' ', ' '] (List.replicate 2 hardSpace) s)

end EditorService.Feature
