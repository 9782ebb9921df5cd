import EditorService.Config

/-!
# The memory of settings

Computing settings reads files, so results are remembered: thirty-two of them, for all configurations together. When a
new one has no room, the one that was used longest ago goes. A result is remembered for a configuration and a way of
asking; asking without naming a document and asking for no document are two ways.
-/

namespace EditorService.Settings

/-- A way of asking for settings. -/
inductive Query where
  | plain
  | forPath (path : Option String)
  deriving DecidableEq, Repr

/-- The path that a way of asking names. -/
def Query.path? : Query → Option String
  | .plain => none
  | .forPath path => path

/-- **Remembered settings**, the one used longest ago first. -/
abbrev Cache := Table (ConfigId × Query) Value

namespace Cache

/-- How many results are remembered. -/
def capacity : Nat := 32

/-- A result that has just been used. -/
def touch (c : Cache) (key : ConfigId × Query) (v : Value) : Cache := Table.erase c key ++ [(key, v)]

/-- Remembers a new result. -/
def remember (c : Cache) (key : ConfigId × Query) (v : Value) : Cache :=
  let c := touch c key v
  c.drop (c.length - capacity)

end Cache

/-- **Settings through the memory**: the answer, and what is remembered afterwards. A fault is not remembered. -/
def cached (cache : Cache) (config : Config) (host : Host) (query : Query) : Except Fault Value × Cache :=
  let key := (config.id, query)
  match Table.get? cache key with
  | some v => (.ok v, cache.touch key v)
  | none =>
    match config.compute host query.path? with
    | .ok v => (.ok v, cache.remember key v)
    | .error f => (.error f, cache)

end EditorService.Settings
