import EditorService.Table

/-!
# Dynamic values

Settings and the parameters of requests have no fixed shape. They are values of one type: null, a truth value, a whole
number, a text, a list, or a dictionary whose entries keep their order.

Two notions of sameness are used. Equality of values is equality of everything, order included, and is decidable.
`alike` is what a comparison in a setting means: the order of entries does not count, and a truth value counts as the
number it stands for.
-/

namespace EditorService

/-- **A dynamic value.** -/
inductive Value where
  | null
  | bool (b : Bool)
  | int (n : Int)
  | str (s : String)
  | list (items : List Value)
  | dict (entries : List (String × Value))
  deriving Inhabited, Repr

namespace Value

/-! ## Equality -/

mutual

/-- Whether two values are equal. -/
def same : Value → Value → Bool
  | .null, .null => true
  | .bool a, .bool b => a == b
  | .int a, .int b => a == b
  | .str a, .str b => a == b
  | .list a, .list b => sameList a b
  | .dict a, .dict b => sameEntries a b
  | _, _ => false

/-- Whether two lists of values are equal. -/
def sameList : List Value → List Value → Bool
  | [], [] => true
  | a :: as, b :: bs => same a b && sameList as bs
  | _, _ => false

/-- Whether two lists of entries are equal. -/
def sameEntries : List (String × Value) → List (String × Value) → Bool
  | [], [] => true
  | (k, a) :: as, (l, b) :: bs => k == l && (same a b && sameEntries as bs)
  | _, _ => false

end

mutual

theorem same_iff : ∀ (a b : Value), same a b = true ↔ a = b
  | .null, b => by cases b <;> simp [same]
  | .bool _, b => by cases b <;> simp [same]
  | .int _, b => by cases b <;> simp [same]
  | .str _, b => by cases b <;> simp [same]
  | .list as, b => by cases b <;> simp [same, sameList_iff as]
  | .dict as, b => by cases b <;> simp [same, sameEntries_iff as]

theorem sameList_iff : ∀ (a b : List Value), sameList a b = true ↔ a = b
  | [], b => by cases b <;> simp [sameList]
  | a :: as, b => by cases b <;> simp [sameList, same_iff a, sameList_iff as]

theorem sameEntries_iff : ∀ (a b : List (String × Value)), sameEntries a b = true ↔ a = b
  | [], b => by cases b <;> simp [sameEntries]
  | (k, a) :: as, b => by
    cases b with
    | nil => simp [sameEntries]
    | cons e bs =>
      obtain ⟨l, b⟩ := e
      simp [sameEntries, same_iff a, sameEntries_iff as, and_assoc]

end

instance : DecidableEq Value := fun a b => decidable_of_iff _ (same_iff a b)

/-! ## Truth, and sameness up to order -/

/-- **Whether a value counts as true.** Null, false, zero and everything empty count as false. -/
def truthy : Value → Bool
  | .null => false
  | .bool b => b
  | .int n => n != 0
  | .str s => s != ""
  | .list items => !items.isEmpty
  | .dict entries => !entries.isEmpty

mutual

/-- **Whether two values are alike**: equal up to the order of entries and the reading of truth values as numbers. -/
def alike : Value → Value → Bool
  | .null, .null => true
  | .bool a, .bool b => a == b
  | .bool a, .int n => (if a then 1 else 0) == n
  | .int n, .bool b => n == (if b then 1 else 0)
  | .int a, .int b => a == b
  | .str a, .str b => a == b
  | .list as, .list bs => alikeList as bs
  | .dict as, .dict bs => as.length == bs.length && alikeEntries as bs
  | _, _ => false

/-- Whether two lists are alike item by item. -/
def alikeList : List Value → List Value → Bool
  | [], [] => true
  | a :: as, b :: bs => alike a b && alikeList as bs
  | _, _ => false

/-- Whether each entry of the first list has its like in the second. -/
def alikeEntries : List (String × Value) → List (String × Value) → Bool
  | [], _ => true
  | (k, a) :: as, bs =>
    (match Table.get? bs k with
      | some b => alike a b
      | none => false) && alikeEntries as bs

end

/-- A text, or null for none. -/
def ofText? : Option String → Value
  | some s => .str s
  | none => .null

/-- A whole number, or null for none. -/
def ofInt? : Option Int → Value
  | some n => .int n
  | none => .null

/-- A list of texts. -/
def ofTexts (texts : List String) : Value := .list (texts.map .str)

end Value

end EditorService
