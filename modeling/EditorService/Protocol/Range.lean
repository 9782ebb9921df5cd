import EditorService.Value.Access

/-!
# Positions and ranges

A position is a line and a character in it, both counted from zero. A range is two positions. An edit puts a text in
the place of a range. All of them travel as dictionaries.
-/

namespace EditorService.Protocol

/-- **A position**: line and character, counted from zero. -/
structure Position where
  line : Int
  character : Int
  deriving DecidableEq, Repr, Inhabited

/-- **A range** between two positions. -/
structure Range where
  start : Position
  stop : Position
  deriving DecidableEq, Repr, Inhabited

/-- **An edit**: a text in the place of a range. -/
structure Edit where
  range : Range
  newText : String
  deriving DecidableEq, Repr

/-- A position as a dictionary. -/
def Position.toValue (p : Position) : Value := .dict [("line", .int p.line), ("character", .int p.character)]

/-- A range as a dictionary. -/
def Range.toValue (r : Range) : Value := .dict [("start", r.start.toValue), ("end", r.stop.toValue)]

/-- An edit as a dictionary. -/
def Edit.toValue (e : Edit) : Value := .dict [("range", e.range.toValue), ("newText", .str e.newText)]

/-- The range on one line from a character up to another. -/
def Range.onLine (line first last : Int) : Range := ⟨⟨line, first⟩, ⟨line, last⟩⟩

/-- The range from the start of a document up to the start of a line. -/
def Range.upToLine (line : Int) : Range := ⟨⟨0, 0⟩, ⟨line, 0⟩⟩

/-- Reads a position: its line, then its character. -/
def Position.ofValue (v : Value) : Except Fault Position := do
  let line ← (← v.item "line").number
  let character ← (← v.item "character").number
  return ⟨line, character⟩

/-- Reads a range: its start, then its end. -/
def Range.ofValue (v : Value) : Except Fault Range := do
  let start ← Position.ofValue (← v.item "start")
  let stop ← Position.ofValue (← v.item "end")
  return ⟨start, stop⟩

end EditorService.Protocol
