import EditorService.Tool.Answer
import EditorService.Value.Read

/-!
# Recorded answers of the outside tools

The answers of the tools can be given as one value: a dictionary with a part for each tool. What is not recorded is
answered by default. In the place of an answer a fault can be recorded, by its kind and message.
-/

namespace EditorService.Tool

/-- **A recorded answer**, or the fault that is recorded in its place. -/
def outcome {α : Type} (v : Value) (read : Value → α) : Except Fault α :=
  if v.hasPart "raise" then
    .error (.tool (ToolFaultKind.ofLabel ((v.part "raise").textOr "")) ((v.part "message").textOr ""))
  else .ok (read v)

/-- A recorded extent. -/
def Extent.ofValue (v : Value) : Extent :=
  match v.items with
  | [a, b, c, d] =>
    { startLine := a.numberOr 1, startColumn := b.numberOr 0, endLine := c.numberOr 1, endColumn := d.numberOr 0 }
  | _ => {}

/-- The definition of which nothing is recorded. -/
def Definition.blank : Definition where
  name := "x"
  kind := "statement"
  fullName := none
  description := ""
  modulePath := none
  line := none
  column := none
  index := none
  params := []
  extent := {}
  parent := .ok none
  members := .ok []
  doc := ""
  rawDoc := ""
  signatures := []
  text := ""
  isDefinition := false
  isBuiltIn := false

/-- A recorded definition, read down to a depth. -/
def Definition.ofValue : (depth : Nat) → Value → Definition
  | 0, _ => blank
  | depth + 1, v =>
    { name := (v.part "name").textOr "x"
      kind := (v.part "type").textOr "statement"
      fullName := (v.part "full_name").text?
      description := (v.part "description").textOr ""
      modulePath := (v.part "module_path").text?
      line := (v.part "line").number?
      column := (v.part "column").number?
      index := (v.part "index").number?
      params := (v.part "params").items.map (ofValue depth)
      extent := Extent.ofValue (v.part "def")
      parent := outcome (v.part "parent") fun p => if p == .null then none else some (ofValue depth p)
      members := outcome (v.part "defined_names") fun ds => ds.items.map (ofValue depth)
      doc := (v.part "doc").textOr ""
      rawDoc := (v.part "raw_doc").textOr ""
      signatures := (v.part "signatures").items.map (ofValue depth)
      text := (v.part "string").textOr ""
      isDefinition := (v.part "is_definition").truthy
      isBuiltIn := (v.part "builtin").truthy }

/-- The class of an inner node. -/
def NodeClass.ofName (name : String) : NodeClass :=
  if name == "Module" then .module
  else if name == "IfStmt" then .ifStatement
  else if name == "TryStmt" then .tryStatement
  else if name == "Function" || name == "Lambda" then .function
  else if name == "PythonNode" then .plain
  else if name == "PythonErrorNode" then .error
  else .other

/-- The class of a leaf. -/
def LeafClass.ofName (name : String) : LeafClass :=
  if name == "Newline" then .newline
  else if name == "Keyword" then .keyword
  else if name == "Operator" then .operator
  else if name == "Name" then .name
  else if name == "EndMarker" then .endMarker
  else .other

/-- A recorded tree, read down to a depth. -/
def Tree.ofValue : (depth : Nat) → Value → Tree
  | 0, _ => .node .other "" []
  | depth + 1, v =>
    match v.items with
    | [cls, type, .list children] =>
      .node (NodeClass.ofName (cls.textOr "")) (type.textOr "") (children.map (ofValue depth))
    | [cls, value, line, column] =>
      .leaf (LeafClass.ofName (cls.textOr "")) (value.textOr "") (line.numberOr 1) (column.numberOr 0)
    | _ => .node .other "" []

/-- The analysis engine's recorded answers. -/
def Engine.ofValue (v : Value) : Engine :=
  let ask (method : String) := outcome (v.part method) fun ds => ds.items.map (Definition.ofValue v.depth)
  let engine : Engine := {
    infer := ask "infer"
    goto := ask "goto"
    references := ask "get_references"
    signatures := ask "get_signatures"
    complete := ask "complete"
    names := ask "get_names"
    rename := outcome (v.part "rename") fun changes => changes.items.map fun change =>
      match change.items with
      | [path, code] => (path.textOr "", code.textOr "")
      | _ => ("", "") }
  if v.hasPart "sys_path" then { engine with searchPath := (v.part "sys_path").textItems } else engine

/-- The parser's recorded answers. -/
def Parser.ofValue (v : Value) : Parser :=
  let statement := (v.part "expr_type").textOr "expr_stmt"
  if v.hasPart "tree" then { tree := Tree.ofValue v.depth (v.part "tree"), statement } else { statement }

/-- The refactoring library's recorded answers. -/
def Refactoring.ofValue (v : Value) : Refactoring where
  proposals := outcome (v.part "proposals") fun ps => ps.items.map fun p =>
    { name := (p.part "name").textOr ""
      kind := (p.part "type").text?
      scope := (p.part "scope").text?
      doc := (p.part "doc").text? }
  changes := outcome (v.part "changes") fun cs => cs.items.map fun c =>
    { path := (c.part "path").textOr ""
      contents := (c.part "contents").textOr ""
      newContents := (c.part "new_contents").textOr "" }

/-- A formatter's recorded answer. -/
def Formatted.ofValue (v : Value) : Formatted where
  newText := (v.part "new_source").text?
  changed := (v.part "changed").truthy

/-- A recorded event of the checker of names. -/
def NameEvent.ofValue (v : Value) : NameEvent :=
  match (v.part "event").textOr "" with
  | "syntaxError" => .syntaxError (v.part "msg") (v.part "lineno") (v.part "offset") (v.part "text")
  | "unexpectedError" => .unexpected (v.part "msg")
  | _ =>
    .flake ((v.part "kind").textOr "") ((v.part "lineno").numberOr 0) ((v.part "col").numberOr 0)
      ((v.part "message").textOr "") (v.part "args").items

/-- A recorded report of the style checker. -/
def StyleReport.ofValue (v : Value) : StyleReport where
  errors := (v.part "errors").items.map fun e =>
    match e.items with
    | [line, offset, text] => (line.numberOr 0, offset.numberOr 0, text.textOr "")
    | _ => (0, 0, "")
  ignored := (v.part "ignored").textItems
  expected := some (v.part "expected").textItems

/-- The complexity checker's recorded answers. -/
def ComplexityReport.ofValue (v : Value) : ComplexityReport where
  syntaxError := (v.part "syntax_error").truthy
  graphs := (v.part "graphs").items.map fun g =>
    { line := (g.part "lineno").numberOr 0
      column := (g.part "column").numberOr 0
      complexity := (g.part "complexity").numberOr 0 }

/-- The documentation checker's recorded answers. -/
def DocumentationReport.ofValue (v : Value) : DocumentationReport where
  files := (v.part "files").items.map fun f =>
    { name := (f.part "filename").textOr ""
      codes := (f.part "codes").textItems
      ignoreDecorators := f.part "ignore_decorators" }
  errors := (v.part "errors").items.map fun e =>
    { code := (e.part "code").textOr ""
      message := (e.part "message").textOr ""
      line := (e.part "start").numberOr 0 }
  parseError := (v.part "parse_error").truthy

/-- The recorded answers of a linter that runs as a process. -/
def ProcessReport.ofValue (v : Value) : ProcessReport where
  output := (v.part "stdout").textOr ""
  errors := (v.part "stderr").textOr ""
  missing := (v.part "missing").textItems
  inProcess := outcome (v.part "json_out") fun output => output.textOr ""

/-- How a command is recorded to behave. -/
def CommandAnswer.ofValue (v : Value) : CommandAnswer where
  command := (v.part "cmd").textItems
  output := (v.part "stdout").textOr ""
  status := (v.part "returncode").numberOr 0
  startError := (v.part "errno").number?

/-- **All recorded answers.** -/
def Answers.ofValue (v : Value) : Answers where
  engine := Engine.ofValue (v.part "jedi")
  parser := Parser.ofValue (v.part "parso")
  refactoring := Refactoring.ofValue (v.part "rope")
  autopep8 := outcome (v.part "autopep8") Formatted.ofValue
  yapf := outcome (v.part "yapf") Formatted.ofValue
  names := (v.part "pyflakes").items.map NameEvent.ofValue
  style := fun _ => StyleReport.ofValue (v.part "pycodestyle")
  complexity := ComplexityReport.ofValue (v.part "mccabe")
  documentation := DocumentationReport.ofValue (v.part "pydocstyle")
  flake8 := ProcessReport.ofValue (v.part "flake8")
  pylint := ProcessReport.ofValue (v.part "pylint")
  importErrors := (v.part "import_errors").textItems
  kill := (v.part "kill").number?
  commands := (v.part "commands").items.map CommandAnswer.ofValue
  bind := outcome (v.part "bind") fun _ => ()

end EditorService.Tool
