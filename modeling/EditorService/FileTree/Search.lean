import EditorService.FileTree

/-!
# Searching upwards

Two searches go from a file towards the root. `findParents` looks for files of given names, first in the directory of
a path and then in each directory above it, up to a given root; the nearest directory that holds any of them wins.
`packages` collects the directories above a file for as long as they are packages, which gives a module its full name.

All that a search asks of a file system is which paths name something. So the searches have this as a parameter, `there`.
The service looks paths up by their text, `FileTree.has`; a disk answers with `FileTree.onDisk`.
-/

namespace EditorService

namespace Search

/-- The entries among `names` that exist in a directory, in the order of `names`. -/
def namesIn (there : String → Bool) (dir : List Char) (names : List String) : List String :=
  (names.map fun n => String.ofList (Path.append dir n.toList)).filter there

/-- The chain of directories from `root` down to the directory of `path`. -/
def chainTo (root path : List Char) : Except Fault (List (List Char)) := do
  return root :: Text.split '/' (← Path.relative (Path.directory path) root)

/-- The directory at the end of a chain. -/
def chainEnd : List (List Char) → List Char
  | [] => []
  | first :: rest => Path.appendAll first rest

/-- The files found at the end of a chain, given innermost first, or at the end of the nearest shorter one. -/
def searchUp (there : String → Bool) (names : List String) : List (List Char) → List String
  | [] => []
  | dir :: outer =>
    let found := namesIn there (chainEnd (dir :: outer).reverse) names
    if found.isEmpty then searchUp there names outer else found

/-- **The nearest files of the given names**, between the directory of `path` and `root`. Nothing is found without a
root, nor where the two paths do not start alike. -/
def findParents (there : String → Bool) (root path : String) (names : List String) : Except Fault (List String) :=
  let root := root.toList
  let path := path.toList
  if root.isEmpty || path.isEmpty || root.head? != path.head? then .ok []
  else do
    let chain ← chainTo root path
    return searchUp there names chain.reverse

/-- Whether a directory is a package. -/
def isPackage (there : String → Bool) (dir : List Char) : Bool :=
  there (String.ofList (Path.append dir "__init__.py".toList))

/-- **The packages around a directory**, outermost first, walking up at most `steps` times. `none` says that the walk
did not end by then: at the root, a package contains itself. -/
def packages (there : String → Bool) : (steps : Nat) → (dir : List Char) → Option (List (List Char))
  | 0, _ => none
  | steps + 1, dir =>
    if isPackage there dir then
      (packages there steps (Path.directory dir)).map fun outer => outer ++ [Path.base dir]
    else some []

/-- **The dotted name of a module**: the packages around it and its own name. -/
def dottedName? (there : String → Bool) (path : String) : Option String :=
  let p := path.toList
  (packages there (p.length + 1) (Path.directory p)).map fun outer =>
    String.ofList (Text.join ['.'] (outer ++ [Path.stem (Path.base p)]))

end Search

namespace FileTree

/-- The entries among `names` that exist in a directory. -/
abbrev namesIn (t : FileTree) : List Char → List String → List String := Search.namesIn t.has

/-- The nearest files of the given names. -/
abbrev findParents (t : FileTree) : String → String → List String → Except Fault (List String) := Search.findParents t.has

/-- The dotted name of a module. -/
abbrev dottedName? (t : FileTree) : String → Option String := Search.dottedName? t.has

end FileTree

end EditorService
