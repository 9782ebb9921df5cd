import EditorService.Fault

/-!
# Signed places in a list

A place in a list may be counted from the front, from zero on, or from the back, from minus one on. `at?` reads a
single item and fails outside the list, and `get` says why; `before` and `onward` cut the list at a place, and a place
outside is the nearest end.
-/

namespace EditorService.SignedIndex

variable {α : Type}

/-- The distance from the front of a place, or `none` when the place is before the front. -/
def offset? (length : Nat) (i : Int) : Option Nat :=
  if 0 ≤ i then some i.toNat
  else if 0 ≤ i + length then some (i + length).toNat
  else none

/-- **The item at a place.** -/
def at? (xs : List α) (i : Int) : Option α :=
  match offset? xs.length i with
  | some n => xs[n]?
  | none => none

/-- Whether a number is small enough to be a place: it takes at most sixty-four bits. -/
def isPlace (i : Int) : Bool := -9223372036854775808 ≤ i && i < 9223372036854775808

/-- **The item at a place that must be in the list.** -/
def get (xs : List α) (i : Int) : Except Fault α :=
  match at? xs i with
  | some a => .ok a
  | none => .error (if isPlace i then .indexRange else .indexWidth)

/-- The items before a place. -/
def before (xs : List α) (i : Int) : List α := xs.take ((offset? xs.length i).getD 0)

/-- The items from a place on. -/
def onward (xs : List α) (i : Int) : List α := xs.drop ((offset? xs.length i).getD 0)

theorem get_eq_ok_iff (xs : List α) (i : Int) (a : α) : get xs i = .ok a ↔ at? xs i = some a := by
  unfold get
  split
  · rename_i h
    simp [h]
  · rename_i h
    simp [h]

theorem at?_ofNat (xs : List α) (n : Nat) : at? xs n = xs[n]? := by
  simp [at?, offset?]

end EditorService.SignedIndex
