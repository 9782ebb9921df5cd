import EditorService.Settings.Source
import EditorService.Plugin

/-!
# Configurations

A configuration gathers settings from four layers: what the plugins set by default, what the client sent, the user's
files, and the project's files. A later layer overrides an earlier one. Which sources of files are read, and which of
two sources wins, is itself a setting of the client.
-/

namespace EditorService

/-- The number under which a configuration is kept. -/
abbrev ConfigId := Nat

/-- **A configuration.** -/
structure Config where
  id : ConfigId
  rootUri : String
  rootPath : String
  initOptions : Value
  processId : Value
  capabilities : Value
  client : Value := .dict []
  defaults : List (String × Value) := []
  sources : List Settings.Source := [.flake8, .pycodestyle]
  plugins : Registry := []
  disabled : List (Option String) := []

namespace Config

open EditorService.Settings (Source merge)

/-- The sources that the client lists, in its order; without a list there is one. -/
def listedSources (c : Config) : Except Fault (List Value) := do
  let listed ← c.client.getD "configurationSources" (.list [.str "pycodestyle"])
  match listed with
  | .list items => return items
  | .str _ => listed.elements
  | .dict _ => listed.elements
  | _ => throw .wrongType

/-- The source of a name, when it is available. A list or a dictionary cannot be a name. -/
def sourceOf? (c : Config) (name : Value) : Except Fault (Option Source) :=
  match name with
  | .list _ => .error .wrongType
  | .dict _ => .error .wrongType
  | .str s => .ok (c.sources.find? fun source => source.name == s)
  | _ => .ok none

/-- Merges what each listed source gives, from the last to the first. -/
def mergeSources (c : Config) (names : List Value) (given : Source → Except Fault Value)
    (settings : List (String × Value)) : Except Fault (List (String × Value)) :=
  names.reverse.foldlM (fun settings name => do
    match ← c.sourceOf? name with
    | some source => return merge settings (← (← given source).entries)
    | none => return settings) settings

/-- The path from which the project's files are searched: that of the document, or the root. -/
def searchedFrom (c : Config) (path : Option String) : String :=
  match path with
  | some p => if p == "" then c.rootPath else p
  | none => c.rootPath

/-- **The settings for the document at `path`**, or for the root of the project without one. -/
def compute (c : Config) (host : Host) (path : Option String) : Except Fault Value := do
  let listed := c.listedSources
  let client ← c.client.entries
  let settings := merge (merge [] c.defaults) client
  let names ← listed
  let settings ← c.mergeSources names (·.userSettings host) settings
  let settings ← c.mergeSources names (·.projectSettings host c.rootPath (c.searchedFrom path)) settings
  return .dict settings

end Config

end EditorService
