import EditorService.Value.Access

/-!
# Merging settings

Settings come in layers, and a later layer overrides an earlier one. Where both layers hold a dictionary the two are
merged in turn. Elsewhere the later value wins, unless it is null.
-/

namespace EditorService.Settings

mutual

/-- One value overridden by another at the same key. -/
def mergeValue : Value → Value → Value
  | .dict a, .dict b => .dict (overridden a b ++ added a b)
  | a, .null => a
  | _, b => b

/-- The entries of the earlier layer, each overridden by the later one. -/
def overridden : List (String × Value) → List (String × Value) → List (String × Value)
  | [], _ => []
  | (k, v) :: rest, b =>
    (k, match Table.get? b k with
      | some w => mergeValue v w
      | none => v) :: overridden rest b

/-- The entries that only the later layer has; a null says nothing. -/
def added (a b : List (String × Value)) : List (String × Value) :=
  b.filter fun e => !Table.has a e.1 && Table.get? b e.1 != some .null

end

/-- **The later layer merged into the earlier one.** -/
def merge (a b : List (String × Value)) : List (String × Value) := overridden a b ++ added a b

/-- Two layers given as values, merged. Both must be dictionaries. -/
def mergeValues (a b : Value) : Except Fault Value := do
  let x ← a.entries
  let y ← b.entries
  return .dict (merge x y)

end EditorService.Settings
