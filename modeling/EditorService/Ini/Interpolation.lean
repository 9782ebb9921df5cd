import EditorService.Ini
import EditorService.Text.Split

/-!
# References inside settings files

The text of an option may refer to other options of its section: `%(name)s` stands for the text of `name`, and `%%`
for a percent sign. A text that is referred to may refer further, up to ten deep.
-/

namespace EditorService.Ini

/-- Which option is being expanded: its name, its section and its text as written. -/
structure Origin where
  option : String
  sectionName : String
  raw : String

/-- The name in a reference and what follows it; the percent sign and the parenthesis are gone. -/
def reference? (s : List Char) : Option (List Char × List Char) :=
  let name := s.takeWhile (· != ')')
  match s.dropWhile (· != ')') with
  | ')' :: 's' :: rest => if name.isEmpty then none else some (name, rest)
  | _ => none

theorem reference?_shorter {s name rest : List Char} (h : reference? s = some (name, rest)) :
    rest.length < s.length := by
  unfold reference? at h
  simp only at h
  have hlen : (s.takeWhile (· != ')')).length + (s.dropWhile (· != ')')).length = s.length := by
    rw [← List.length_append, List.takeWhile_append_dropWhile]
  split at h
  · next hd =>
    split at h
    · cases h
    · simp only [Option.some.injEq, Prod.mk.injEq] at h
      obtain ⟨_, rfl⟩ := h
      rw [hd] at hlen
      simp only [List.length_cons] at hlen
      omega
  · cases h

/-- **Expands the references in a text**, going at most `levels` deep. -/
def expand (options : Table String String) (origin : Origin) (levels : Nat) (s : List Char) :
    Except Fault (List Char) :=
  match levels with
  | 0 => .error (.ini (.referenceTooDeep origin.option origin.sectionName origin.raw))
  | levels + 1 =>
    match s with
    | [] => .ok []
    | '%' :: '%' :: rest => do return '%' :: (← expand options origin (levels + 1) rest)
    | '%' :: '(' :: rest =>
      match hr : reference? rest with
      | none => .error (.ini (.badReference (String.ofList s)))
      | some (name, after) =>
        have : after.length < rest.length := reference?_shorter hr
        let name := Text.lowered (String.ofList name)
        match Table.get? options name with
        | none => .error (.ini (.referenceMissing origin.option origin.sectionName origin.raw name))
        | some value => do
          let value ← if value.toList.contains '%' then expand options origin levels value.toList
            else .ok value.toList
          return value ++ (← expand options origin (levels + 1) after)
    | '%' :: rest => .error (.ini (.badPercent (String.ofList ('%' :: rest))))
    | c :: rest => do return c :: (← expand options origin (levels + 1) rest)
termination_by (levels, s.length)

/-- **The text of an option with its references expanded.** -/
def expandedText (ini : Ini) (name option : String) : Except Fault String := do
  let options ← ini.visible name
  let raw ← ini.text name option
  let origin : Origin := { option := Text.lowered option, sectionName := name, raw }
  return String.ofList (← expand options origin 10 raw.toList)

end EditorService.Ini
