import EditorService.Version.Pieces
import EditorService.Version.Style

/-!
# The version in the name of a directory

An archive is often unpacked into a directory that is named for the project and its version. The root of the project
and the two directories above it are looked at.
-/

namespace EditorService.Version

/-- A directory and those above it, `levels` of them in all. -/
def upwards : Nat → String → List String
  | 0, _ => []
  | levels + 1, path => path :: upwards levels (Path.directoryOf path)

/-- **The version in the name of a directory** that starts with the prefix of the project. -/
def fromParentDirectory (parentPrefix root : String) (verbose : Bool) : Routine Value := do
  let directories := upwards 3 root
  match directories.findSome? fun d => withoutPrefix? parentPrefix (Path.baseOf d) with
  | some version => return Info.record { version := .str version, dirty := .bool false }
  | none =>
    Routine.printIf verbose
      ("Tried directories " ++ displayWords directories ++ " but none started with prefix " ++ parentPrefix)
    Routine.fail (.notApplicable "rootdir doesn't start with parentdir_prefix")

end EditorService.Version
