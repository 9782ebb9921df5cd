import EditorService.Ini
import EditorService.Settings.Merge
import EditorService.Text.Blank
import EditorService.Text.Split

/-!
# Options and the settings they stand for

A table of rows says which option of a settings file sets which setting: the option's name, the dotted place of the
setting, and the kind of value. An option may be written with dashes or with underscores; the spelling of the row is
tried first.
-/

namespace EditorService.Settings

/-- The kinds of value that an option can have. A kind that is not known has a name only. -/
inductive OptionKind where
  | integer
  | truth
  | text
  | list
  | unknown (name : String)
  deriving DecidableEq, Repr

/-- **One row**: the option, the place of the setting, and the kind of value. -/
structure OptionRow where
  option : String
  place : String
  kind : OptionKind
  deriving DecidableEq, Repr

/-- **The items of a text with commas**, trimmed; empty items are left out. -/
def listItems (s : String) : List String :=
  (((Text.split ',' s.toList).map Text.trim).filter fun i => !i.isEmpty).map String.ofList

/-- The value of an option that is present, read as its kind says. -/
def readOption (ini : Ini) (name option : String) : OptionKind → Except Fault Value
  | .truth => (ini.truth name option).map .bool
  | .integer => (ini.integer name option).map .int
  | .text => (ini.text name option).map .str
  | .list => (ini.text name option).map fun s => Value.ofTexts (listItems s)
  | .unknown kind => .error (.optionType kind)

/-- The spelling of an option with underscores. -/
def underscored (option : String) : String := Text.replaced "-" "_" option

/-- **The value of a row's option**, under the first spelling that is present. -/
def optionValue? (ini : Ini) (name : String) (row : OptionRow) : Except Fault (Option Value) :=
  match [row.option, underscored row.option].find? (ini.hasOption name) with
  | some option => (readOption ini name option row.kind).map some
  | none => .ok none

/-- Writes a value at a place given by the keys that lead to it. Dictionaries on the way are made as needed; anything
else on the way is a fault. -/
def setAt : (keys : List String) → Value → Value → Except Fault Value
  | [], _, v => .ok v
  | key :: rest, .dict entries, v => do
    match rest with
    | [] => return .dict (Table.put entries key v)
    | _ =>
      let inner := (Table.get? entries key).getD (.dict [])
      return .dict (Table.put entries key (← setAt rest inner v))
  | _ :: _, _, _ => .error .wrongType

/-- The keys of a dotted place. -/
def placeKeys (place : String) : List String := (Text.split '.' place.toList).map String.ofList

/-- **Writes a value at a dotted place.** A null is not written. -/
def setPlace (config : Value) (place : String) (v : Value) : Except Fault Value :=
  if v == .null then .ok config else setAt (placeKeys place) config v

/-- **The settings that a section of options stands for.** -/
def fromOptions (ini : Ini) (name : String) (rows : List OptionRow) : Except Fault Value :=
  rows.foldlM (fun config row => do
    match ← optionValue? ini name row with
    | some v => setPlace config row.place v
    | none => return config) (.dict [])

end EditorService.Settings
