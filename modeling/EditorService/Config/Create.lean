import EditorService.Job
import EditorService.Uri.FilePath

/-!
# Making and changing a configuration

A new configuration asks every plugin for its default settings and merges them. Then, and whenever the client sends
new settings, it works out which plugins are disabled: those whose settings say so.
-/

namespace EditorService

/-- The modules that are loaded at the start, and that the refactoring library knows as extensions. -/
def preloadedModules : List String :=
  ["OpenGL", "PIL",
   "array", "audioop", "binascii", "cPickle", "cStringIO", "cmath", "collections",
   "datetime", "errno", "exceptions", "gc", "imageop", "imp", "itertools",
   "marshal", "math", "matplotlib", "mmap", "mpmath", "msvcrt", "networkx", "nose", "nt",
   "numpy", "operator", "os", "os.path", "pandas", "parser", "rgbimg", "scipy", "signal",
   "skimage", "sklearn", "statsmodels", "strop", "sympy", "sys", "thread", "time",
   "wx", "xxsubtype", "zipimport", "zlib"]

/-- Default settings that switch a plugin off. -/
def switchedOff (plugin : String) : Value :=
  .dict [("plugins", .dict [(plugin, .dict [("enabled", .bool false)])])]

/-- **The default settings of a plugin** that comes with the service. -/
def BuiltIn.defaultSettings : BuiltIn → Value
  | .flake8 => switchedOff "flake8"
  | .pydocstyle => switchedOff "pydocstyle"
  | .ropeCompletion => switchedOff "rope_completion"
  | .ropeRename => switchedOff "rope_rename"
  | .pylint =>
    .dict [("plugins", .dict [("pylint", .dict [
      ("enabled", .bool false), ("args", .list []), ("executable", .null)])])]
  | .preload =>
    .dict [
      ("plugins", .dict [("preload", .dict [("modules", Value.ofTexts preloadedModules)])]),
      ("rope", .dict [("extensionModules", Value.ofTexts preloadedModules)])]
  | _ => .null

/-- The default settings of a plugin, asked for by the configuration of `rootUri`. -/
def Plugin.defaultSettings (rootUri : String) : Plugin → Job Value
  | .builtIn b => return b.defaultSettings
  | .custom c => do
    Job.note Hook.settings.name [("plugin", .str c.name), ("args", .dict [("config", .str rootUri)])]
    match Table.get? c.answers Hook.settings.name with
    | some a => Job.ofExcept a.result
    | none => return .null

namespace Config

/-- Whether settings leave a plugin enabled. Plugins are, unless a setting says otherwise. -/
def isEnabled (settings : Value) (plugin : String) : Except Fault Bool := do
  let plugins ← settings.getD "plugins" (.dict [])
  let own ← plugins.getD plugin (.dict [])
  return (← own.getD "enabled" (.bool true)).truthy

/-- **The disabled plugins.** A blocked name counts as no plugin. -/
def findDisabled (c : Config) : Job (List (Option String)) := do
  let marked ← c.plugins.mapM fun (name, plugin) => do
    let settings ← Job.settings c .plain
    let enabled ← Job.ofExcept (isEnabled settings name)
    return if enabled then none else some (plugin.map Plugin.name)
  return marked.filterMap fun m => m

/-- The merged defaults of all plugins that answer. -/
def gatherDefaults (c : Config) : Job (List (String × Value)) := do
  let given ← (c.plugins.implementations .settings []).mapM (Plugin.defaultSettings c.rootUri)
  (given.filter (· != .null)).foldlM (fun all v => do
    return Settings.merge all (← Job.ofExcept v.entries)) []

/-- A configuration that does not know yet which plugins are disabled. -/
def draft (id : ConfigId) (rootUri : String) (initOptions processId capabilities : Value)
    (sources : List Settings.Source) (plugins : List Plugin) : Job Config := do
  let host ← Job.host
  let rootPath ← Job.ofExcept (Uri.toPath host.drives rootUri)
  let c : Config := {
    id, rootUri, rootPath, initOptions, processId, capabilities, sources
    plugins := Registry.ofPlugins plugins }
  return { c with defaults := ← c.gatherDefaults }

/-- **A new configuration.** -/
def create (id : ConfigId) (rootUri : String) (initOptions processId capabilities : Value)
    (sources : List Settings.Source) (plugins : List Plugin) : Job Config := do
  let c ← draft id rootUri initOptions processId capabilities sources plugins
  return { c with disabled := ← c.findDisabled }

/-- A configuration that has just received settings from the client; its disabled plugins are still the old ones. -/
def withClient (c : Config) (client : Value) : Config := { c with client }

/-- **Gives a configuration new settings of the client.** They are taken over, and all settings forgotten, even when
the disabled plugins cannot be worked out. -/
def update (c : Config) (client : Value) : StateM Bench (Except Fault Unit × Config) := do
  let c := c.withClient client
  let (found, bench) := c.findDisabled.perform { ← get with settings := [] }
  set bench
  match found with
  | .ok disabled => return (.ok (), { c with disabled })
  | .error f => return (.error f, c)

/-- The names of the disabled plugins. A blocked name is listed as soon as any blocked one is disabled. -/
def disabledNames (c : Config) : List String :=
  (c.plugins.filter fun (_, plugin) => c.disabled.contains (plugin.map Plugin.name)).map (·.1)

/-- The files of the given names nearest to a path. -/
def findParents (c : Config) (host : Host) (path : String) (names : List String) : Except Fault (List String) :=
  host.files.findParents c.rootPath path names

end Config

end EditorService
