import EditorService.FileTree
import EditorService.Tool.Answer

/-!
# The surroundings of the service

The files, the environment variables, the system's name, whether paths have drives, the style checker's file for the
user, and what the outside tools answer.
-/

namespace EditorService

/-- **The surroundings.** -/
structure Host where
  files : FileTree := {}
  environment : Table String String := []
  platform : String := "linux"
  drives : Bool := false
  styleFile : String := ""
  answers : Tool.Answers := {}

namespace Host

/-- A path with a leading `~` put in the place of the home directory. Only the home of the current user is known. -/
def expandHome (h : Host) (path : List Char) : List Char :=
  match path with
  | '~' :: rest =>
    if rest.isEmpty || rest.head? == some '/' then
      let home := ((Table.get? h.environment "HOME").getD "/").toList
      let expanded := (home.reverse.dropWhile (· == '/')).reverse ++ rest
      if expanded.isEmpty then ['/'] else expanded
    else path
  | _ => path

/-- A character of a variable's name. -/
def isNameChar (c : Char) : Bool := c.isAlphanum || c == '_'

/-- What a reference to a variable stands for; a variable that is not set leaves its reference as it is. -/
def reference (h : Host) (name written : List Char) : List Char :=
  match Table.get? h.environment (String.ofList name) with
  | some value => value.toList
  | none => written

/-- **A path with the variables it refers to put in**: `$name` and `$\x7bname\x7d`. The fuel is the length. -/
def expandVariables (h : Host) : Nat → List Char → List Char
  | 0, s => s
  | _ + 1, [] => []
  | fuel + 1, '$' :: '\x7b' :: rest =>
    let name := rest.takeWhile (· != '\x7d')
    match rest.dropWhile (· != '\x7d') with
    | _ :: after => h.reference name ('$' :: '\x7b' :: name ++ ['\x7d']) ++ h.expandVariables fuel after
    | [] => '$' :: h.expandVariables fuel ('\x7b' :: rest)
  | fuel + 1, '$' :: rest =>
    let name := rest.takeWhile isNameChar
    if name.isEmpty then '$' :: h.expandVariables fuel rest
    else h.reference name ('$' :: name) ++ h.expandVariables fuel (rest.drop name.length)
  | fuel + 1, c :: rest => c :: h.expandVariables fuel rest

/-- **A path as a person may write it**, made absolute: variables first, then the home directory. -/
def resolvePath (h : Host) (path : String) : String :=
  let expanded := h.expandHome (h.expandVariables path.length path.toList)
  String.ofList (Path.absolute h.files.current.toList expanded)

end Host

end EditorService
