import EditorService.Text.Number
import EditorService.Text.Split

/-!
# Names of revisions

A revision is named by a tag before it, the number of steps from there, and its hash: `tag-steps-ghash`, with `-dirty`
at the end when the checkout has changes of its own. A tag may hold hyphens, also ones that look like a name, so a name
is read from its end: `ofText?` cuts at the last two hyphens, and `text` is its inverse.
-/

namespace EditorService.Version

/-- **The name of a revision.** -/
structure Described where
  tag : List Char
  steps : Nat
  hash : List Char
  deriving DecidableEq, Repr

/-- What a checkout with changes of its own is marked with. -/
def dirtyMark : List Char := "-dirty".toList

/-- A digit of a hash. -/
def isHashDigit (c : Char) : Bool := ('0' ≤ c && c ≤ '9') || ('a' ≤ c && c ≤ 'f')

/-- A whole number written with digits alone. -/
def steps? (digits : List Char) : Option Nat :=
  if digits.all Text.isDigit then Text.readDigits? 0 false digits else none

/-- A text without the line feed at its end. -/
def dropFeed (s : List Char) : List Char := if s.getLast? == some '\n' then s.dropLast else s

/-- The digits of a hash behind its letter. -/
def hash? : List Char → Option (List Char)
  | 'g' :: digits => if !digits.isEmpty && digits.all isHashDigit then some digits else none
  | _ => none

/-- **Reads the name of a revision.** A tag has at least one character and no line feed. -/
def Described.ofText? (s : List Char) : Option Described :=
  match Text.splitLast '-' (dropFeed s) with
  | (some front, last) =>
    match Text.splitLast '-' front with
    | (some tag, digits) =>
      if tag.isEmpty || tag.contains '\n' then none
      else do return { tag, steps := ← steps? digits, hash := ← hash? last }
    | (none, _) => none
  | (none, _) => none

/-- **Writes the name of a revision.** -/
def Described.text (d : Described) : List Char :=
  d.tag ++ '-' :: Nat.toDigits 10 d.steps ++ '-' :: 'g' :: d.hash

/-- Takes the mark of changes off: what stands before it, and whether it was there. -/
def takeDirty (s : List Char) : List Char × Bool :=
  if Text.endsWith dirtyMark s then (s.take (s.length - dirtyMark.length), true) else (s, false)

/-- A name with the mark of changes, if there are any. -/
def markDirty (s : List Char) (dirty : Bool) : List Char := if dirty then s ++ dirtyMark else s

end EditorService.Version
