import EditorService.Value

/-!
# Reading recorded values

A recorded value is read leniently: a part that is missing or of another kind is taken as a default. `depth` bounds how
far a reader has to descend.
-/

namespace EditorService.Value

/-- The part of a value under a key; one that is missing is null. -/
def part (v : Value) (key : String) : Value :=
  match v with
  | .dict entries => (Table.get? entries key).getD .null
  | _ => .null

/-- Whether a value has a part under a key. -/
def hasPart (v : Value) (key : String) : Bool :=
  match v with
  | .dict entries => Table.has entries key
  | _ => false

/-- The text that a value is, if it is one. -/
def text? : Value → Option String
  | .str s => some s
  | _ => none

/-- The text that a value is, or another one. -/
def textOr (v : Value) (otherwise : String) : String := v.text?.getD otherwise

/-- The whole number that a value is, if it is one. -/
def number? : Value → Option Int
  | .int n => some n
  | _ => none

/-- The whole number that a value is, or another one. -/
def numberOr (v : Value) (otherwise : Int) : Int := v.number?.getD otherwise

/-- The items of a list; other values have none. -/
def items : Value → List Value
  | .list xs => xs
  | _ => []

/-- The entries of a dictionary; other values have none. -/
def parts : Value → List (String × Value)
  | .dict entries => entries
  | _ => []

/-- The texts of a list. -/
def textItems (v : Value) : List String := v.items.filterMap text?

/-- A value, or an empty dictionary in the place of null. -/
def orEmpty : Value → Value
  | .null => .dict []
  | v => v

mutual

/-- How deep a value is nested. -/
def depth : Value → Nat
  | .list xs => 1 + depthOfItems xs
  | .dict es => 1 + depthOfEntries es
  | _ => 1

/-- How deep the deepest of some values is nested. -/
def depthOfItems : List Value → Nat
  | [] => 0
  | v :: vs => max (depth v) (depthOfItems vs)

/-- How deep the deepest of some entries is nested. -/
def depthOfEntries : List (String × Value) → Nat
  | [] => 0
  | e :: es => max (depth e.2) (depthOfEntries es)

end

end EditorService.Value
