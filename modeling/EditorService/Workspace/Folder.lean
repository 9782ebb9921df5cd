import EditorService.Path

/-!
# The folder of a document

Several folders may be open at once. A document belongs to the folder whose path agrees with the document's own in the
most places. Paths are compared part by part from the front; a folder with more parts than the document is passed
over, and so is one that agrees nowhere. Of folders that agree equally often the first one wins.
-/

namespace EditorService.Workspace

/-- **In how many places two lists of parts agree.** -/
def agreement : List (List Char) → List (List Char) → Nat
  | a :: as, b :: bs => (if a == b then 1 else 0) + agreement as bs
  | _, _ => 0

/-- How well a folder fits a document: the places of agreement, or none when it cannot hold the document. -/
def fit? (document folder : List (List Char)) : Option Nat :=
  if document.length < folder.length then none
  else
    let n := agreement folder document
    if n == 0 then none else some n

/-- The better of the best folder so far and the next one. -/
def better (document : List (List Char)) (best : Option (Nat × String)) (folder : String) : Option (Nat × String) :=
  match fit? document (Path.parts folder.toList), best with
  | none, _ => best
  | some n, none => some (n, folder)
  | some n, some (m, old) => if m < n then some (n, folder) else some (m, old)

/-- **The folder that a document belongs to**, among folders in order of registration. -/
def bestFolder (document : String) (folders : List String) : Option String :=
  (folders.foldl (better (Path.parts document.toList)) none).map (·.2)

end EditorService.Workspace
