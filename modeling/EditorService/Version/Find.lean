import EditorService.Version.File
import EditorService.Version.ParentDirectory
import EditorService.Version.Project

/-!
# Finding a version

A version is looked for in four places, in this order: the expanded keywords of an archive, the version file of a
release, the checkout, and the name of the directory. The first place that has an answer decides. A place that has none
hands on to the next, and a version that is found nowhere is unknown.

`findVersion` looks from the setup script of the project, `ownVersion` from inside the installed program.
-/

namespace EditorService.Version

/-- The version control system that the tool knows. -/
def knownSystem : String := "git"

/-- A version that is not known, and why. -/
def unknownVersion (reason : String) : Value := Info.record { version := .str "0+unknown", error := .str reason }

/-- A setting that must be given. -/
def required (setting : Option String) (reason : String) : Routine String :=
  match setting with
  | some s => pure s
  | none => Routine.fail (.refused reason)

/-- A version from a place, reported if asked for. -/
def reported (verbose : Bool) (place : String) (found : Routine Value) : Routine Value := do
  let known ← found
  Routine.printIf verbose ("got version from " ++ place ++ " " ++ known.plain)
  return known

/-- **Finds what is known about the version of the project.** -/
def findVersion (verbose : Bool) : Routine Value := do
  let root ← findRoot
  let settings ← readSettings root
  if settings.system != knownSystem then Routine.fail (.refused ("unrecognized VCS '" ++ settings.system ++ "'"))
  let verbose := verbose || settings.verbose.any (· != "")
  let source ← required settings.source "please set versioneer.versionfile_source"
  let tagPrefix ← required settings.tagPrefix "please set versioneer.tag_prefix"
  let path := Path.appended root source
  let parentPrefix := settings.parentPrefix.getD ""
  Routine.firstOf
    ([reported verbose "expanded keyword" do
        fromKeywords (← Routine.ofExcept (readKeywords (← Routine.files) path)) tagPrefix verbose,
      reported verbose ("file " ++ path) (readVersionFile path),
      reported verbose "VCS" do
        let pieces ← checkoutPieces tagPrefix root verbose
        Routine.ofExcept (render pieces.record (.str settings.style))] ++
      (if parentPrefix == "" then []
        else [reported verbose "parentdir" (fromParentDirectory parentPrefix root verbose)]))
    do
      Routine.printIf verbose "unable to compute version"
      return unknownVersion "unable to compute version"

/-- **The version of the project.** -/
def projectVersion : Routine Value := do Routine.ofExcept ((← findVersion false).item "version")

/-! ## From inside the program -/

/-- What the installed program knows about where it came from. -/
structure Origin where
  style : Value := .str "pep440"
  tagPrefix : String := ""
  parentPrefix : String := ""
  source : String := "pyls/_version.py"
  verbose : Bool := false

/-- The keywords of a program that did not come from an archive. -/
def plainKeywords : Value :=
  .dict [("refnames", .str "$Format:%d$"), ("full", .str "$Format:%H$"), ("date", .str "$Format:%ci$")]

/-- The directory that is as many levels up from a file as its path has segments. -/
def rootAbove (file source : String) : String :=
  (Text.split '/' source.toList).foldl (fun path _ => Path.directoryOf path) file

/-- **What the program knows about its own version.** A program that does not know its own file has no root. -/
def ownVersion (origin : Origin) (keywords : Value) : Routine Value := do
  let tool := (← get).tool
  let here ← Routine.here
  Routine.firstOf [fromKeywords keywords origin.tagPrefix origin.verbose] do
    match tool with
    | none => return unknownVersion "unable to find root of source tree"
    | some file =>
      let root := rootAbove (Path.absoluteFrom here file) origin.source
      Routine.firstOf
        ((do
            let pieces ← checkoutPieces origin.tagPrefix root origin.verbose
            Routine.ofExcept (render pieces.record origin.style)) ::
          (if origin.parentPrefix == "" then []
            else [fromParentDirectory origin.parentPrefix root origin.verbose]))
        (return unknownVersion "unable to compute version")

end EditorService.Version
