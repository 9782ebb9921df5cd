import EditorService.Settings.Option
import EditorService.Ini.Reader
import EditorService.FileTree.Search
import EditorService.Host

/-!
# Settings files of the linters

Two linters keep settings files of their own: one for the user, and one or more in a project. A source knows the names
of these files, the section to read, and the rows that say which option sets which setting. The nearest directory
above a document that holds one of a source's project files is the one that counts.
-/

namespace EditorService.Settings

/-- **The sources of settings.** The base source has no files: reading it is a fault. -/
inductive Source where
  | base
  | flake8
  | pycodestyle
  deriving DecidableEq, Repr

namespace Source

/-- The name under which a source is listed in the settings. -/
def name : Source → String
  | .base => "base"
  | .flake8 => "flake8"
  | .pycodestyle => "pycodestyle"

/-- The rows of the style checker, for one linter's settings. -/
def styleRows (linter : String) : List OptionRow :=
  [⟨"exclude", "plugins." ++ linter ++ ".exclude", .list⟩,
   ⟨"filename", "plugins." ++ linter ++ ".filename", .list⟩,
   ⟨"hang-closing", "plugins." ++ linter ++ ".hangClosing", .truth⟩,
   ⟨"ignore", "plugins." ++ linter ++ ".ignore", .list⟩,
   ⟨"max-line-length", "plugins." ++ linter ++ ".maxLineLength", .integer⟩,
   ⟨"select", "plugins." ++ linter ++ ".select", .list⟩]

/-- The rows of a source. -/
def rows : Source → List OptionRow
  | .base => []
  | .flake8 =>
    ⟨"max-complexity", "plugins.mccabe.threshold", .integer⟩ :: styleRows "pycodestyle" ++ styleRows "flake8"
  | .pycodestyle => styleRows "pycodestyle" ++ [⟨"aggressive", "plugins.pycodestyle.aggressive", .integer⟩]

/-- The names of a source's files in a project. -/
def projectFiles : Source → List String
  | .base => []
  | .flake8 => [".flake8", "setup.cfg", "tox.ini"]
  | .pycodestyle => ["pycodestyle.cfg", "setup.cfg", "tox.ini"]

/-- The directory of the user's settings files. -/
def userDirectory (host : Host) : String :=
  match Table.get? host.environment "XDG_CONFIG_HOME" with
  | some dir => dir
  | none => String.ofList (host.expandHome "~/.config".toList)

/-- The user's file of a source. -/
def userFile (host : Host) : Source → String
  | .base => ""
  | .flake8 =>
    if host.platform == "win32" then String.ofList (host.expandHome "~\\.flake8".toList)
    else Path.appended (userDirectory host) "flake8"
  | .pycodestyle => host.styleFile

/-- **Reads settings files**, one after another; what is no file is passed over. -/
def readFiles (files : FileTree) (paths : List String) : Except Fault Ini :=
  paths.foldlM (fun ini path => do
    if files.isFile path then ini.read path (← files.read path) else return ini) {}

/-- The settings that files of a source stand for. -/
def settingsIn (s : Source) (files : FileTree) (paths : List String) : Except Fault Value := do
  fromOptions (← readFiles files paths) s.name s.rows

/-- **The user's settings** from a source. -/
def userSettings (s : Source) (host : Host) : Except Fault Value :=
  match s with
  | .base => .error .noImplementation
  | s => s.settingsIn host.files [userFile host s]

/-- **A project's settings** from a source, for the document at `path`. -/
def projectSettings (s : Source) (host : Host) (root path : String) : Except Fault Value :=
  match s with
  | .base => .error .noImplementation
  | s => do s.settingsIn host.files (← host.files.findParents root path s.projectFiles)

end Source

end EditorService.Settings
