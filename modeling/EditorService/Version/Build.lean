import EditorService.Version.Install

/-!
# Build commands

The tool adds to the build commands of a project. Each of its commands stands on a base command of the packaging
library and runs it at some point: before it writes the version into what was built, or in between writing the version
and taking it out again. Running a base command is a call to the outside.
-/

namespace EditorService.Version

/-- The packaging libraries at hand. -/
structure Packaging where
  setuptools : Bool := true
  freezers : List String := []

/-- What a command of the tool does around its base command. -/
inductive CommandKind where
  | report
  | build
  | freeze
  | release
  deriving DecidableEq, Repr

/-- **A command**: what it does, and the base command it stands on. -/
structure BuildCommand where
  kind : CommandKind
  base : String
  deriving DecidableEq, Repr

/-- The library that the base commands come from. -/
def Packaging.library (p : Packaging) : String := if p.setuptools then "setuptools" else "distutils"

/-- The base command of the second freezer, in the newer or the older form. -/
def Packaging.secondFreezer? (p : Packaging) : Option String := ["py2exe", "py2exe_old"].find? p.freezers.contains

/-- **The commands that the tool adds.** The first freezer takes the place of the plain build. -/
def Packaging.commands (p : Packaging) : Table String BuildCommand :=
  [("version", ⟨.report, "Command"⟩)] ++
  (if p.freezers.contains "cx_Freeze" then [("build_exe", ⟨.freeze, "cx_Freeze.build_exe"⟩)]
    else [("build_py", ⟨.build, p.library ++ ".build_py"⟩)]) ++
  (p.secondFreezer?.map fun base => ("py2exe", ⟨.freeze, base⟩)).toList ++
  [("sdist", ⟨.release, p.library ++ ".sdist"⟩)]

/-- What a command is given: the directory that is built into, and the directory of the release. -/
structure Request where
  buildDirectory : Option String := none
  releaseDirectory : Option String := none

/-- Runs a base command, which sees the version of the distribution. -/
def runBase (base : String) (version : Value) : Routine Unit := Routine.note (base ++ ".run") [("version", version)]

/-- The version of a distribution before any command has set it. -/
def initialVersion : Value := .str "0"

/-- Has a base command lay out a release. -/
def layOutBase (base directory : String) : Routine Unit :=
  Routine.note (base ++ ".make_release_tree") [("base_dir", .str directory), ("files", .list [])]

/-- Writes what is known about the version to a file, and says so. -/
def updateVersionFile (path : String) (known : Value) : Routine Unit := do
  Routine.print ("UPDATING " ++ path)
  writeVersionFile path known

/-- Reports the version. -/
def reportVersion : Routine Unit := do
  let known ← findVersion true
  Routine.print ("Version: " ++ (← Routine.ofExcept (known.item "version")).plain)
  Routine.print (" full-revisionid: " ++ (← Routine.ofExcept (known.getD "full-revisionid" .null)).plain)
  Routine.print (" dirty: " ++ (← Routine.ofExcept (known.getD "dirty" .null)).plain)
  Routine.print (" date: " ++ (← Routine.ofExcept (known.getD "date" .null)).plain)
  let error ← Routine.ofExcept (known.item "error")
  if error.truthy then Routine.print (" error: " ++ error.plain)

/-- The settings of the project and what is known about its version. -/
def settingsAndVersion : Routine (Settings × Value) := do
  let settings ← readSettings (← findRoot)
  return (settings, ← findVersion false)

/-- Builds, and writes the version into what was built. -/
def build (base : String) (directory : Option String) : Routine Unit := do
  let (settings, known) ← settingsAndVersion
  runBase base initialVersion
  match settings.build.filter (· != "") with
  | none => pure ()
  | some file =>
    match directory with
    | none => throw .wrongType
    | some directory => updateVersionFile (Path.appended directory file) known

/-- Freezes the program with the version written into it; afterwards the module of the checkout is put back. -/
def freeze (base : String) : Routine Unit := do
  let (settings, known) ← settingsAndVersion
  match settings.source with
  | none => throw .wrongType
  | some source =>
    updateVersionFile source known
    runBase base initialVersion
    Routine.remove source
    writeModule settings source

/-- Lays out a release with the version written into it. -/
def layOut (base directory : String) (known : Value) : Routine Unit := do
  let settings ← readSettings (← findRoot)
  layOutBase base directory
  match settings.source with
  | none => throw .wrongType
  | some source => updateVersionFile (Path.appended directory source) known

/-- Makes a release, and lays it out when a directory is given. -/
def release (base : String) (directory : Option String) : Routine Unit := do
  let known ← findVersion false
  runBase base (← Routine.ofExcept (known.item "version"))
  match directory with
  | none => pure ()
  | some directory => layOut base directory known

/-- **Runs a command.** -/
def BuildCommand.run (c : BuildCommand) (request : Request) : Routine Unit :=
  match c.kind with
  | .report => reportVersion
  | .build => build c.base request.buildDirectory
  | .freeze => freeze c.base
  | .release => release c.base request.releaseDirectory

/-- **Runs the command of a name.** -/
def Packaging.run (p : Packaging) (name : String) (request : Request) : Routine Unit :=
  match Table.get? p.commands name with
  | some c => c.run request
  | none => throw (.keyMissing name)

end EditorService.Version
