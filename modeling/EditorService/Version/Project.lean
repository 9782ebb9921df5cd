import EditorService.Version.Keywords
import EditorService.Ini.Reader
import EditorService.Ini.Interpolation

/-!
# The project whose version is wanted

A project has a root, the directory of its setup script, and a section of settings for the version tool. The root is
the current directory, or else the directory of the script that was started.
-/

namespace EditorService.Version

/-! ## The root -/

/-- The name of the setup script. -/
def setupName : String := "setup.py"

/-- The name of the tool's file. -/
def toolName : String := "versioneer.py"

/-- The name of the settings file. -/
def settingsName : String := "setup.cfg"

/-- The reason given when there is no root. -/
def noRoot : String :=
  "Versioneer was unable to run the project root directory. Versioneer requires setup.py to be executed from " ++
  "its immediate directory (like 'python setup.py COMMAND'), or in a way that lets it use sys.argv[0] to find the " ++
  "root (like 'python path/to/setup.py COMMAND')."

/-- Whether a directory is the root of a project: the setup script or the tool is in it. -/
def isRoot (files : FileTree) (directory : String) : Bool :=
  files.has (Path.appended directory setupName) || files.has (Path.appended directory toolName)

/-- A path without the extension of its last segment. -/
def withoutExtension (path : String) : String :=
  let (front, last) := Path.cutLast path.toList
  String.ofList (front ++ Path.stem last)

/-- Warns when the tool in use is not the one of the project. -/
def checkTool (root : String) : Routine Unit := do
  match (← get).tool with
  | none => pure ()
  | some tool =>
    let tool := Path.absoluteFrom (← Routine.here) tool
    let expected := Path.appended root toolName
    if withoutExtension tool != withoutExtension expected then
      Routine.print ("Warning: build in " ++ Path.directoryOf tool ++ " is using versioneer.py from " ++ expected)

/-- **Finds the root of the project.** -/
def findRoot : Routine String := do
  let files ← Routine.files
  let script := (← get).script
  let here := Path.normalized files.current
  let root := if isRoot files here then here else Path.directoryOf (Path.absoluteFrom files.current script)
  if isRoot files root then
    checkTool root
    return root
  else Routine.fail (.badRoot noRoot)

/-! ## The settings -/

/-- **The settings of the version tool.** Only the first must be given. -/
structure Settings where
  system : String
  style : String := ""
  source : Option String := none
  build : Option String := none
  tagPrefix : Option String := none
  parentPrefix : Option String := none
  verbose : Option String := none
  deriving DecidableEq, Repr

/-- The section of the version tool. -/
def sectionName : String := "versioneer"

/-- The text of an option, if it is given. -/
def optionText? (ini : Ini) (option : String) : Except Fault (Option String) :=
  if ini.hasOption sectionName option then do return some (← ini.expandedText sectionName option) else .ok none

/-- Two quotes stand for the empty text. -/
def unquoteEmpty (s : String) : String := if s == "''" || s == "\"\"" then "" else s

/-- **The settings in a settings file.** -/
def Settings.ofIni (ini : Ini) : Except Fault Settings := do
  let system ← ini.expandedText sectionName "VCS"
  let style ← optionText? ini "style"
  let source ← optionText? ini "versionfile_source"
  let build ← optionText? ini "versionfile_build"
  let tagPrefix ← optionText? ini "tag_prefix"
  let parentPrefix ← optionText? ini "parentdir_prefix"
  let verbose ← optionText? ini "verbose"
  return {
    system, style := style.getD "", source, build, tagPrefix := tagPrefix.map unquoteEmpty, parentPrefix, verbose }

/-- **Reads the settings of the project** in a directory. -/
def readSettings (root : String) : Routine Settings := do
  let path := Path.appended root settingsName
  let text ← Routine.read path
  Routine.ofExcept do Settings.ofIni (← Ini.read {} path text)

/-- Settings as a record. -/
def Settings.record (s : Settings) : Value :=
  .dict [
    ("VCS", .str s.system), ("style", .str s.style), ("versionfile_source", Value.ofText? s.source),
    ("versionfile_build", Value.ofText? s.build), ("tag_prefix", Value.ofText? s.tagPrefix),
    ("parentdir_prefix", Value.ofText? s.parentPrefix), ("verbose", Value.ofText? s.verbose)]

end EditorService.Version
