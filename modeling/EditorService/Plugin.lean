import EditorService.Hook
import EditorService.Value.Access

/-!
# Plugins

A plugin answers hooks. The service comes with twenty; others are given as data, with a fixed answer for each hook.

A registry lists plugins by name. A plugin that cannot be loaded is blocked: its name is listed, in front of the
others, without a plugin. Of two plugins of one name the first counts.
-/

namespace EditorService

/-- The plugins that come with the service, in order of registration. -/
inductive BuiltIn where
  | autopep8 | flake8 | folding | completion | definition | highlight | hover | references | engineRename
  | signatureHelp | symbols | mccabe | preload | pycodestyle | pydocstyle | pyflakes | pylint | ropeCompletion
  | ropeRename | yapf
  deriving DecidableEq, Repr

/-- The name under which a plugin is registered. -/
def BuiltIn.name : BuiltIn → String
  | .autopep8 => "autopep8"
  | .flake8 => "flake8"
  | .folding => "folding"
  | .completion => "jedi_completion"
  | .definition => "jedi_definition"
  | .highlight => "jedi_highlight"
  | .hover => "jedi_hover"
  | .references => "jedi_references"
  | .engineRename => "jedi_rename"
  | .signatureHelp => "jedi_signature_help"
  | .symbols => "jedi_symbols"
  | .mccabe => "mccabe"
  | .preload => "preload"
  | .pycodestyle => "pycodestyle"
  | .pydocstyle => "pydocstyle"
  | .pyflakes => "pyflakes"
  | .pylint => "pylint"
  | .ropeCompletion => "rope_completion"
  | .ropeRename => "rope_rename"
  | .yapf => "yapf"

/-- All of them, in order of registration. -/
def BuiltIn.all : List BuiltIn :=
  [.autopep8, .flake8, .folding, .completion, .definition, .highlight, .hover, .references, .engineRename,
   .signatureHelp, .symbols, .mccabe, .preload, .pycodestyle, .pydocstyle, .pyflakes, .pylint, .ropeCompletion,
   .ropeRename, .yapf]

/-- The hooks that a plugin answers. -/
def BuiltIn.hooks : BuiltIn → List Hook
  | .autopep8 => [.formatDocument, .formatRange]
  | .flake8 => [.settings, .lint]
  | .folding => [.foldingRange]
  | .completion => [.completions]
  | .definition => [.definitions]
  | .highlight => [.highlight]
  | .hover => [.hover]
  | .references => [.references]
  | .engineRename => [.rename]
  | .signatureHelp => [.signatureHelp]
  | .symbols => [.symbols]
  | .mccabe => [.lint]
  | .preload => [.settings, .start]
  | .pycodestyle => [.lint]
  | .pydocstyle => [.settings, .lint]
  | .pyflakes => [.lint]
  | .pylint => [.settings, .lint]
  | .ropeCompletion => [.settings, .completions]
  | .ropeRename => [.settings, .rename]
  | .yapf => [.formatDocument, .formatRange]

/-- The fixed answer of a plugin given as data: a value or a fault, and when it asks to run. -/
structure FixedAnswer where
  result : Except Fault Value
  priority : Hook.Priority := .ordinary

/-- **A plugin given as data.** -/
structure Custom where
  name : String
  unloadable : Bool := false
  answers : Table String FixedAnswer := []

/-- **A plugin.** -/
inductive Plugin where
  | builtIn (b : BuiltIn)
  | custom (c : Custom)

namespace Plugin

/-- The name of a plugin. -/
def name : Plugin → String
  | .builtIn b => b.name
  | .custom c => c.name

/-- Whether a plugin cannot be loaded. -/
def unloadable : Plugin → Bool
  | .builtIn _ => false
  | .custom c => c.unloadable

/-- Whether a plugin answers a hook. -/
def answers (p : Plugin) (hook : Hook) : Bool :=
  match p with
  | .builtIn b => b.hooks.contains hook
  | .custom c => Table.has c.answers hook.name

/-- When a plugin's answer to a hook asks to run. -/
def priority (p : Plugin) (hook : Hook) : Hook.Priority :=
  match p with
  | .builtIn .autopep8 => .first
  | .builtIn _ => .ordinary
  | .custom c =>
    match Table.get? c.answers hook.name with
    | some a => a.priority
    | none => .ordinary

end Plugin

/-- **Plugins by name**, blocked names without one. -/
abbrev Registry := Table String (Option Plugin)

namespace Registry

/-- The names that are blocked: those of plugins that cannot be loaded. -/
def blocked (plugins : List Plugin) : List String :=
  ((plugins.filter Plugin.unloadable).map Plugin.name).eraseDups

/-- **The registry of a list of plugins.** -/
def ofPlugins (plugins : List Plugin) : Registry :=
  let blocked := blocked plugins
  plugins.foldl (fun r p => if Table.has r p.name then r else r ++ [(p.name, some p)])
    (blocked.map fun n => (n, none))

/-- The plugins that are registered, in order of registration. -/
def active (r : Registry) : List Plugin := r.filterMap (·.2)

/-- The plugins that answer a hook, in the order in which they run, without the disabled ones. -/
def implementations (r : Registry) (hook : Hook) (disabled : List (Option String)) : List Plugin :=
  Hook.runOrder (·.priority hook)
    (r.active.filter fun p => p.answers hook && !disabled.contains (some p.name))

end Registry

end EditorService
