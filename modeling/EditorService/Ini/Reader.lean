import EditorService.Ini
import EditorService.Text.Split
import EditorService.Text.Blank
import EditorService.Text.Lines

/-!
# Reading settings files

A file is read line by line. A line in brackets opens a section. A line `name = text` or `name: text` is an option. A
line further in than the option before it continues its text, and blank lines inside a text belong to it. Lines that
start with `#` or `;` are comments.

Four things are wrong with a file: text before the first section, a section or an option given twice in one file, and
lines that are none of the above. The first three stop the reading at once. Lines of the last kind are collected, and
the fault at the end lists them all.
-/

namespace EditorService.Ini

/-- **A file half read.** Texts are kept as lists of lines until the file ends. -/
structure Draft where
  sections : Table String (Table String (List (List Char)))
  defaults : Table String (List (List Char))
  current : Option String := none
  option : Option String := none
  indent : Nat := 0
  seenSections : List String := []
  seenOptions : List (String × String) := []
  unreadable : List (Nat × String) := []

/-- A draft to which a file is about to be added. -/
def draft (ini : Ini) : Draft where
  sections := ini.sections.map fun s => (s.1, s.2.map fun o => (o.1, [o.2.toList]))
  defaults := ini.defaults.map fun o => (o.1, [o.2.toList])

/-- The text of a list of lines. -/
def settled (lines : List (List Char)) : String := String.ofList (Text.trimEnd (Text.join ['\n'] lines))

/-- What a draft says, once the file has ended. -/
def Draft.finish (d : Draft) : Ini where
  sections := d.sections.map fun s => (s.1, s.2.map fun o => (o.1, settled o.2))
  defaults := d.defaults.map fun o => (o.1, settled o.2)

/-- Changes the options of the open section. -/
def Draft.modifyOptions (d : Draft)
    (f : Table String (List (List Char)) → Table String (List (List Char))) : Draft :=
  match d.current with
  | none => d
  | some name =>
    if name == defaultName then { d with defaults := f d.defaults }
    else { d with sections := Table.put d.sections name (f ((Table.get? d.sections name).getD [])) }

/-- Adds a line to the text of the open option. -/
def Draft.continueOption (d : Draft) (line : List Char) : Draft :=
  match d.option with
  | none => d
  | some name => d.modifyOptions fun options => Table.put options name ((Table.get? options name).getD [] ++ [line])

/-- Whether there is an open option that a line can continue. -/
def Draft.continues (d : Draft) : Bool :=
  d.current.isSome && match d.option with
    | some name => name != ""
    | none => false

/-- The name in a line that opens a section: what stands between the first and the last bracket. -/
def sectionHeader? (line : List Char) : Option String :=
  match line with
  | '[' :: rest =>
    match Text.splitLast ']' rest with
    | (some name, _) => if name.isEmpty then none else some (String.ofList name)
    | (none, _) => none
  | _ => none

/-- The name and the text of an option line, cut at the first `=` or `:`. -/
def optionLine? (line : List Char) : Option (List Char × List Char) :=
  let marks (c : Char) := c == '=' || c == ':'
  match line.dropWhile fun c => !marks c with
  | [] => none
  | _ :: rest => some (Text.trimEnd (line.takeWhile fun c => !marks c), Text.trim rest)

/-- Opens a section. -/
def Draft.openSection (d : Draft) (file : String) (line : Nat) (name : String) : Except Fault Draft :=
  let d := { d with current := some name, option := none }
  if Table.has d.sections name then
    if d.seenSections.contains name then .error (.ini (.repeatedSection file line name))
    else .ok { d with seenSections := name :: d.seenSections }
  else if name == defaultName then .ok d
  else .ok { d with sections := Table.put d.sections name [], seenSections := name :: d.seenSections }

/-- Opens an option. A line without a name is noted as unreadable, and its text is still kept. -/
def Draft.openOption (d : Draft) (file : String) (line : Nat) (raw name value : List Char) : Except Fault Draft :=
  let d := if name.isEmpty then { d with unreadable := d.unreadable ++ [(line, String.ofList raw)] } else d
  let name := String.ofList (Text.lower name)
  let place := (d.current.getD "", name)
  if d.seenOptions.contains place then .error (.ini (.repeatedOption file line place.1 name))
  else
    .ok ({ d with option := some name, seenOptions := place :: d.seenOptions }.modifyOptions fun options =>
      Table.put options name [value])

/-- **Reads one line**, which still has its break. -/
def Draft.readLine (d : Draft) (file : String) (line : Nat) (raw : List Char) : Except Fault Draft :=
  let value := Text.trim raw
  let isComment := value.head? == some '#' || value.head? == some ';'
  if isComment then .ok d
  else if value.isEmpty then .ok (if d.continues then d.continueOption [] else d)
  else
    let indent := (raw.takeWhile Text.isBlank).length
    if d.continues && d.indent < indent then .ok (d.continueOption value)
    else
      let d := { d with indent }
      match sectionHeader? value with
      | some name => d.openSection file line name
      | none =>
        if d.current.isNone then .error (.ini (.noSectionHeader file line (String.ofList raw)))
        else match optionLine? value with
          | some (name, text) => d.openOption file line raw name text
          | none => .ok { d with unreadable := d.unreadable ++ [(line, String.ofList raw)] }

/-- Reads lines, the first of which has the number `line`. -/
def Draft.readLines (d : Draft) (file : String) (line : Nat) : List (List Char) → Except Fault Draft
  | [] => .ok d
  | raw :: rest => do
    let d ← d.readLine file line raw
    d.readLines file (line + 1) rest

/-- **Adds a file to what has been read.** -/
def read (ini : Ini) (file text : String) : Except Fault Ini := do
  let d ← (draft ini).readLines file 1 (Text.fileLines text.toList)
  if d.unreadable.isEmpty then return d.finish else throw (.ini (.unreadable file d.unreadable))

end EditorService.Ini
