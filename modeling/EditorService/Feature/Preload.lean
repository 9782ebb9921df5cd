import EditorService.Feature.View

/-!
# Loading modules at the start

Modules that the settings list are loaded when the service starts, so that later requests find them there. A module
that cannot be loaded is passed over.
-/

namespace EditorService.Feature

/-- **Loads the modules that the settings list.** -/
def preload (config : Config) : Job Value := do
  let settings ← Job.pluginSettings config "preload" none
  let modules ← Job.ofExcept (settings.getD "modules" (.list []))
  for name in ← Job.ofExcept modules.elements do
    Job.note "import" [("name", name)]
  return .null

end EditorService.Feature
