import EditorService.Plugin
import EditorService.Tool.Recorded

/-!
# Plugins given as data

A plugin can be given as a value: its name, and for each hook the answer it gives and when it asks to run. A plugin may
be marked as one that cannot be loaded.
-/

namespace EditorService

/-- A fixed answer given as a value. -/
def FixedAnswer.ofValue (v : Value) : FixedAnswer where
  result := Tool.outcome (v.part "result") fun r => r
  priority :=
    if (v.part "tryfirst").truthy then .first else if (v.part "trylast").truthy then .last else .ordinary

/-- **A plugin given as a value.** -/
def Custom.ofValue (v : Value) : Custom where
  name := (v.part "name").textOr ""
  unloadable := (v.part "import_error").truthy
  answers := (v.part "hooks").parts.map fun (hook, a) => (hook, FixedAnswer.ofValue a)

/-- **A list of plugins given as a value**; anything else stands for those that come with the service. -/
def Plugin.listOfValue (v : Value) : List Plugin :=
  match v with
  | .list ps => ps.map fun p => .custom (Custom.ofValue p)
  | _ => BuiltIn.all.map .builtIn

end EditorService
