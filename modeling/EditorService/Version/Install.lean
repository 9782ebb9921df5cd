import EditorService.Version.Find
import EditorService.Version.Module

/-!
# Setting the version tool up in a project

Setting up writes the module that a checkout carries, makes the package import it, lists it for source archives, and
tells the version control system to expand its keywords. A project without settings for the tool gets a sample of them
and no more.

Every change but the module adds to what is there, and what is found there already is not added again.
-/

namespace EditorService.Version

/-! ## Texts -/

/-- What is said when the settings are missing. -/
def settingsHelp : String := Text.unlines [
  "",
  "setup.cfg is missing the necessary Versioneer configuration. You need",
  "a section like:",
  "",
  " [versioneer]",
  " VCS = git",
  " style = pep440",
  " versionfile_source = src/myproject/_version.py",
  " versionfile_build = myproject/_version.py",
  " tag_prefix =",
  " parentdir_prefix = myproject-",
  "",
  "You will also need to edit your setup.py to use the results:",
  "",
  " import versioneer",
  " setup(version=versioneer.get_version(),",
  "       cmdclass=versioneer.get_cmdclass(), ...)",
  "",
  "Please read the docstring in ./versioneer.py for configuration instructions,",
  "edit setup.cfg, and re-run the installer or 'python versioneer.py setup'."]

/-- Settings to start from. -/
def sampleSettings : String := Text.unlines [
  "",
  "# See the docstring in versioneer.py for instructions. Note that you must",
  "# re-run 'versioneer.py setup' after changing this section, and commit the",
  "# resulting files.",
  "",
  "[versioneer]",
  "#VCS = git",
  "#style = pep440",
  "#versionfile_source =",
  "#versionfile_build =",
  "#tag_prefix =",
  "#parentdir_prefix =",
  ""]

/-- What a package needs to know its version. -/
def packageLines : String := Text.unlines [
  "",
  "from ._version import get_versions",
  "__version__ = get_versions()['version']",
  "del get_versions"]

/-! ## The version control system -/

/-- The file that tells the version control system how to treat other files. -/
def attributesName : String := ".gitattributes"

/-- The attribute of files whose keywords are expanded. -/
def expandAttribute : String := "export-subst"

/-- Whether a line of the attributes asks for the expansion of keywords in a file. -/
def expands (source : String) (line : List Char) : Bool :=
  Text.startsWith source.toList (Text.trim line) && ((Text.words line).drop 1).contains expandAttribute.toList

/-- The tool's own file as seen from the current directory. A compiled one stands for its source. -/
def toolPath : Routine String := do
  match (← get).tool with
  | none => return toolName
  | some tool =>
    let tool := if Text.hasSuffix ".pyc" tool || Text.hasSuffix ".pyo" tool then withoutExtension tool ++ ".py" else tool
    if tool == "" then throw .pathMissing
    let here ← Routine.here
    let path := Path.absolute here.toList tool.toList
    return String.ofList (← Routine.ofExcept (Path.relative path (Path.normalize here.toList)))

/-- Reads a file of which it does not matter whether it exists. -/
def readIfAny (path : String) : Routine String := do
  match (← Routine.files).read path with
  | .ok text => return text
  | .error f => if isFileFault f then return "" else throw f

/-- **Has the keywords of the version file expanded** and adds all files to the version control system. -/
def installKeywords (manifest source : String) (package : Option String) : Routine Unit := do
  let tool ← toolPath
  let attributes ← readIfAny attributesName
  let present := (Text.fileLines attributes.toList).any (expands source)
  if !present then Routine.append attributesName (source ++ " " ++ expandAttribute ++ "\n")
  let files := [manifest, source] ++ (package.filter (· != "")).toList ++ [tool] ++
    (if present then [] else [attributesName])
  let _ ← run (programNames (← get).host.platform) (["add", "--"] ++ files) none false

/-! ## The project -/

/-- **Writes the module** to its place. The file is emptied first. -/
def writeModule (settings : Settings) (source : String) : Routine Unit := do
  Routine.write source ""
  if settings.system == knownSystem then Routine.write source (moduleText settings source)
  else throw (.keyMissing settings.system)

/-- Makes the package import its version. Gives the package's file, if there is one. -/
def extendPackage (source : String) : Routine (Option String) := do
  let path := Path.appended (Path.directoryOf source) "__init__.py"
  if (← Routine.files).has path then
    let old ← readIfAny path
    if Text.contains packageLines.toList old.toList then Routine.print (" " ++ path ++ " unmodified")
    else
      Routine.print (" appending to " ++ path)
      Routine.append path packageLines
    return some path
  else
    Routine.print (" " ++ path ++ " doesn't exist, ok")
    return none

/-- The files that a manifest includes one by one. -/
def included (manifest : String) : List String :=
  ((Text.fileLines manifest.toList).filter (Text.startsWith "include ".toList)).flatMap fun line =>
    ((Text.words line).drop 1).map String.ofList

/-- Lists the tool and the version file for source archives. -/
def extendManifest (manifest source : String) : Routine Unit := do
  let present := included (← readIfAny manifest)
  if present.contains toolName then Routine.print " 'versioneer.py' already in MANIFEST.in"
  else
    Routine.print " appending 'versioneer.py' to MANIFEST.in"
    Routine.append manifest ("include " ++ toolName ++ "\n")
  if present.contains source then Routine.print " versionfile_source already in MANIFEST.in"
  else
    Routine.print (" appending versionfile_source ('" ++ source ++ "') to MANIFEST.in")
    Routine.append manifest ("include " ++ source ++ "\n")

/-- What is wrong with the settings, when the project has to be told. -/
inductive SettingsLack where
  | all
  | system

/-- Whether a fault says that the settings are missing. -/
def settingsLack? : Fault → Option SettingsLack
  | .fileMissing _ => some .all
  | .isDirectory _ => some .all
  | .ini (.sectionMissing _) => some .all
  | .ini (.optionMissing ..) => some .system
  | _ => none

/-- The settings of the project, or what is missing of them. -/
def settingsOrLack (root : String) : Routine (Except SettingsLack Settings) :=
  tryCatch (do return .ok (← readSettings root)) fun f =>
    match settingsLack? f with
    | some lack => return .error lack
    | none => throw f

/-- **Sets the tool up** in the project. The result counts what went wrong. -/
def setUp : Routine Nat := do
  let root ← findRoot
  match ← settingsOrLack root with
  | .error lack =>
    if let .all := lack then
      Routine.warn "Adding sample versioneer config to setup.cfg"
      Routine.append (Path.appended root settingsName) sampleSettings
    Routine.warn settingsHelp
    return 1
  | .ok settings =>
    Routine.print (" creating " ++ optional settings.source)
    match settings.source with
    | none => throw .wrongType
    | some source =>
      writeModule settings source
      let package ← extendPackage source
      let manifest := Path.appended root "MANIFEST.in"
      extendManifest manifest source
      installKeywords manifest source package
      return 0

/-! ## The setup script -/

/-- What a setup script should hold. -/
def scriptNeeds : List String := ["import versioneer", "versioneer.get_cmdclass()", "versioneer.get_version()"]

/-- What a setup script should no longer hold. -/
def scriptLeftovers : List String := ["versioneer.VCS", "versioneer.versionfile_source"]

/-- Whether a text stands on one of some lines. -/
def onSomeLine (lines : List (List Char)) (part : String) : Bool := lines.any (Text.contains part.toList)

/-- **Checks the setup script.** The result counts the complaints. -/
def checkScript : Routine Nat := do
  let lines := Text.fileLines (← Routine.read setupName).toList
  let lacking := !scriptNeeds.all (onSomeLine lines)
  let outdated := scriptLeftovers.any (onSomeLine lines)
  if lacking then
    for line in [
        "", "Your setup.py appears to be missing some important items",
        "(but I might be wrong). Please make sure it has something", "roughly like the following:", "",
        " import versioneer", " setup( version=versioneer.get_version(),",
        "        cmdclass=versioneer.get_cmdclass(),  ...)", ""] do
      Routine.print line
  if outdated then
    for line in [
        "You should remove lines like 'versioneer.VCS = ' and",
        "'versioneer.versionfile_source = ' . This configuration",
        "now lives in setup.cfg, and should be removed from setup.py", ""] do
      Routine.print line
  return (if lacking then 1 else 0) + (if outdated then 1 else 0)

/-- **The tool's command line.** The result is the status with which it ends early, if it does. -/
def runTool (arguments : List String) : Routine (Option Nat) := do
  match arguments with
  | [] => throw .indexRange
  | command :: _ =>
    if command == "setup" then
      let problems ← setUp
      let complaints ← checkScript
      return if problems + complaints == 0 then none else some 1
    else return none

end EditorService.Version
