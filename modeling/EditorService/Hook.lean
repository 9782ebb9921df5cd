/-!
# Hooks

A hook is a question that the service puts to its plugins. Each hook has a name, the parameters that an implementation
may see, and a mode: either all answers are collected, or the first answer ends the call.

`runOrder` is the order in which implementations run. Those that ask to be first come first and those that ask to be
last come last; of the others, and of the first ones, the one registered last runs first.
-/

namespace EditorService

/-- **The hooks.** -/
inductive Hook where
  | codeActions | codeLens | commands | completions | definitions | dispatchers | didOpen | didSave | highlight
  | symbols | executeCommand | experimentalCapabilities | foldingRange | formatDocument | formatRange | hover
  | start | started | lint | references | rename | settings | signatureHelp
  deriving DecidableEq, Repr

namespace Hook

/-- The name of a hook. -/
def name : Hook → String
  | .codeActions => "pyls_code_actions"
  | .codeLens => "pyls_code_lens"
  | .commands => "pyls_commands"
  | .completions => "pyls_completions"
  | .definitions => "pyls_definitions"
  | .dispatchers => "pyls_dispatchers"
  | .didOpen => "pyls_document_did_open"
  | .didSave => "pyls_document_did_save"
  | .highlight => "pyls_document_highlight"
  | .symbols => "pyls_document_symbols"
  | .executeCommand => "pyls_execute_command"
  | .experimentalCapabilities => "pyls_experimental_capabilities"
  | .foldingRange => "pyls_folding_range"
  | .formatDocument => "pyls_format_document"
  | .formatRange => "pyls_format_range"
  | .hover => "pyls_hover"
  | .start => "pyls_initialize"
  | .started => "pyls_initialized"
  | .lint => "pyls_lint"
  | .references => "pyls_references"
  | .rename => "pyls_rename"
  | .settings => "pyls_settings"
  | .signatureHelp => "pyls_signature_help"

/-- The parameters that an implementation of a hook may see. -/
def parameters : Hook → List String
  | .codeActions => ["config", "workspace", "document", "range", "context"]
  | .commands | .dispatchers | .experimentalCapabilities | .start => ["config", "workspace"]
  | .completions | .definitions | .highlight | .hover | .signatureHelp =>
    ["config", "workspace", "document", "position"]
  | .codeLens | .didOpen | .didSave | .symbols | .foldingRange | .formatDocument =>
    ["config", "workspace", "document"]
  | .executeCommand => ["config", "workspace", "command", "arguments"]
  | .formatRange => ["config", "workspace", "document", "range"]
  | .started => []
  | .lint => ["config", "workspace", "document", "is_saved"]
  | .references => ["config", "workspace", "document", "position", "exclude_declaration"]
  | .rename => ["config", "workspace", "document", "position", "new_name"]
  | .settings => ["config"]

/-- Whether the first answer ends the call. -/
def firstResult : Hook → Bool
  | .executeCommand | .formatDocument | .formatRange | .hover | .rename | .signatureHelp => true
  | _ => false

/-- When an implementation asks to run. -/
inductive Priority where
  | first
  | ordinary
  | last
  deriving DecidableEq, Repr

/-- **The order in which implementations run**, given in order of registration. -/
def runOrder {α : Type} (priority : α → Priority) (registered : List α) : List α :=
  (registered.filter fun a => priority a == .first).reverse ++
  (registered.filter fun a => priority a == .ordinary).reverse ++
  registered.filter fun a => priority a == .last

end Hook

end EditorService
