import EditorService.Text.Split
import EditorService.Fault

/-!
# Paths

Paths are texts with `/` between their segments; nothing here looks at a file system. An empty segment and `.` stand
for nothing, `..` for the segment before.

`parts` is the view that comparisons use: the segments that matter, after the root when there is one.
-/

namespace EditorService.Path

open EditorService.Text (split join splitLast startsWith)

/-- Whether a path starts at the root. -/
def isAbsolute (p : List Char) : Bool := p.head? == some '/'

/-- **One path seen from another.** An absolute second path stands for itself. -/
def append (p q : List Char) : List Char :=
  if isAbsolute q then q
  else if p.isEmpty || p.getLast? == some '/' then p ++ q
  else p ++ '/' :: q

/-- A chain of paths, each seen from the one before. -/
def appendAll (p : List Char) (rest : List (List Char)) : List Char := rest.foldl append p

/-- Cuts before the last segment: what stands in front, with its separators, and the segment. -/
def cutLast (p : List Char) : List Char × List Char :=
  match splitLast '/' p with
  | (some front, last) => (front ++ ['/'], last)
  | (none, last) => ([], last)

/-- **The directory of a path.** Separators at its end are dropped, unless there is nothing else. -/
def directory (p : List Char) : List Char :=
  let front := (cutLast p).1
  if front.all (· == '/') then front else (front.reverse.dropWhile (· == '/')).reverse

/-- **The last segment of a path.** -/
def base (p : List Char) : List Char := (cutLast p).2

/-- **A last segment without its extension.** The extension starts at the last dot, when something other than a dot
stands before it. -/
def stem (name : List Char) : List Char :=
  match splitLast '.' name with
  | (some front, _) => if front.all (· == '.') then name else front
  | (none, _) => name

/-- One segment added to segments that are already in order. `rooted` says whether the path starts at the root. -/
def addSegment (rooted : Bool) (done : List (List Char)) (s : List Char) : List (List Char) :=
  if s.isEmpty || s == ['.'] then done
  else if s == ['.', '.'] then
    match done.getLast? with
    | none => if rooted then done else done ++ [s]
    | some last => if last == ['.', '.'] then done ++ [s] else done.dropLast
  else done ++ [s]

/-- The separators that a path starts with, once brought into order: two stay two, more become one. -/
def rootOf (p : List Char) : List Char :=
  match p with
  | '/' :: '/' :: '/' :: _ => ['/']
  | '/' :: '/' :: _ => ['/', '/']
  | '/' :: _ => ['/']
  | _ => []

/-- **A path in its shortest form**, by its text alone. -/
def normalize (p : List Char) : List Char :=
  if p.isEmpty then ['.']
  else
    let root := rootOf p
    let body := root ++ join ['/'] ((split '/' p).foldl (addSegment (!root.isEmpty)) [])
    if body.isEmpty then ['.'] else body

/-- A path seen from the directory `here`, in its shortest form. -/
def absolute (here p : List Char) : List Char := normalize (append here p)

/-- How many leading items two lists share. -/
def sharedLength : List (List Char) → List (List Char) → Nat
  | a :: as, b :: bs => if a == b then sharedLength as bs + 1 else 0
  | _, _ => 0

/-- The segments of an absolute path. -/
def segments (p : List Char) : List (List Char) := (split '/' p).filter fun s => !s.isEmpty

/-- **How to reach `p` from `start`**, both seen from the root. An empty path cannot be reached. -/
def relative (p start : List Char) : Except Fault (List Char) :=
  if p.isEmpty then .error .pathMissing
  else
    let here := segments (absolute ['/'] start)
    let there := segments (absolute ['/'] p)
    let shared := sharedLength here there
    let steps := List.replicate (here.length - shared) ['.', '.'] ++ there.drop shared
    .ok (if steps.isEmpty then ['.'] else join ['/'] steps)

/-- **The parts of a path** that a comparison looks at: the root when there is one, then every segment that is not
empty and not a dot. -/
def parts (p : List Char) : List (List Char) :=
  let root := rootOf p
  let segments := (split '/' p).filter fun s => !s.isEmpty && s != ['.']
  if root.isEmpty then segments else root :: segments

/-! ## On `String` -/

/-- One path seen from another. -/
def appended (p q : String) : String := String.ofList (append p.toList q.toList)

/-- The directory of a path. -/
def directoryOf (p : String) : String := String.ofList (directory p.toList)

/-- The last segment of a path. -/
def baseOf (p : String) : String := String.ofList (base p.toList)

/-- A path in its shortest form. -/
def normalized (p : String) : String := String.ofList (normalize p.toList)

/-- A path seen from the directory `here`, in its shortest form. -/
def absoluteFrom (here p : String) : String := String.ofList (absolute here.toList p.toList)

end EditorService.Path
