import EditorService.Table
import EditorService.Fault
import EditorService.Text.LowerCase
import EditorService.Text.Number

/-!
# Settings files of sections and options

A settings file has sections, each with options and their texts, and a section of defaults that every other section
falls back on. Option names do not depend on case; section names do.

An option is read as a text, a whole number or a truth value. Looking into a section that does not exist is a fault,
and so is asking for an option that neither the section nor the defaults have.
-/

namespace EditorService

/-- **The content of settings files.** -/
structure Ini where
  sections : Table String (Table String String) := []
  defaults : Table String String := []
  deriving Repr, Inhabited, DecidableEq

namespace Ini

/-- The name of the section of defaults. -/
def defaultName : String := "DEFAULT"

/-- Whether an option has a value. An unnamed section stands for the defaults. -/
def hasOption (ini : Ini) (name option : String) : Bool :=
  let option := Text.lowered option
  if name == "" || name == defaultName then Table.has ini.defaults option
  else match Table.get? ini.sections name with
    | some options => Table.has options option || Table.has ini.defaults option
    | none => false

/-- The options that a section sees: its own before the defaults. -/
def visible (ini : Ini) (name : String) : Except Fault (Table String String) :=
  match Table.get? ini.sections name with
  | some options => .ok (options ++ ini.defaults)
  | none => if name == defaultName then .ok ini.defaults else .error (.ini (.sectionMissing name))

/-- **The text of an option.** -/
def text (ini : Ini) (name option : String) : Except Fault String := do
  let options ← ini.visible name
  let option := Text.lowered option
  match Table.get? options option with
  | some value => return value
  | none => throw (.ini (.optionMissing option name))

/-- **The whole number of an option.** -/
def integer (ini : Ini) (name option : String) : Except Fault Int := do
  let value ← ini.text name option
  match Text.readInt? value.toList with
  | some n => return n
  | none => throw (.badInteger value)

/-- What a word says about truth. -/
def truthOf? (word : String) : Option Bool :=
  let word := Text.lowered word
  if ["1", "yes", "true", "on"].contains word then some true
  else if ["0", "no", "false", "off"].contains word then some false
  else none

/-- **The truth value of an option.** -/
def truth (ini : Ini) (name option : String) : Except Fault Bool := do
  let value ← ini.text name option
  match truthOf? value with
  | some b => return b
  | none => throw (.badBoolean value)

end Ini

end EditorService
