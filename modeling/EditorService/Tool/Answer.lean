import EditorService.Tool.Definition
import EditorService.Tool.Tree
import EditorService.Value

/-!
# What the outside tools answer

The service asks other programs and libraries: an analysis engine, a parser, a refactoring library, formatters,
linters, and processes. None of them is part of it. Their answers are data here, one field for each question that the
service asks. An answer that may fail is an `Except`.
-/

namespace EditorService.Tool

/-- The analysis engine's answers. `environment` is what a request for an environment ends in, given its path and
variables: the engine makes it or not. -/
structure Engine where
  environment : Value → Value → Except Fault Unit := fun _ _ => .ok ()
  infer : Except Fault (List Definition) := .ok []
  goto : Except Fault (List Definition) := .ok []
  references : Except Fault (List Definition) := .ok []
  signatures : Except Fault (List Definition) := .ok []
  complete : Except Fault (List Definition) := .ok []
  names : Except Fault (List Definition) := .ok []
  rename : Except Fault (List (String × String)) := .ok []
  searchPath : List String := ["/usr/lib/python3", "/usr/lib/python3/site-packages"]

/-- The parser's answers: the tree of a program, and the type of the first statement of a snippet. -/
structure Parser where
  tree : Tree := .node .module "file_input" []
  statement : String := "expr_stmt"

/-- A completion that the refactoring library proposes. -/
structure Proposal where
  name : String
  kind : Option String := none
  scope : Option String := none
  doc : Option String := none

/-- A file that a refactoring changes. -/
structure FileChange where
  path : String
  contents : String
  newContents : String

/-- The refactoring library's answers. -/
structure Refactoring where
  proposals : Except Fault (List Proposal) := .ok []
  changes : Except Fault (List FileChange) := .ok []

/-- A formatter's answer: the new text, where it gives one, and whether it reports a change. -/
structure Formatted where
  newText : Option String := none
  changed : Bool := false

/-- What the checker of names reports. -/
inductive NameEvent where
  | flake (kind : String) (line column : Int) (message : String) (args : List Value)
  | syntaxError (message : Value) (line offset : Value) (text : Value)
  | unexpected (message : Value)

/-- Which implementation of the indentation check is registered with the style checker. -/
structure Checks where
  own : Bool := true
  formatter : Bool := false
  deriving DecidableEq, Repr

/-- What the style checker reports. -/
structure StyleReport where
  errors : List (Int × Int × String) := []
  ignored : List String := []
  expected : Option (List String) := some []

/-- A function's complexity. -/
structure Complexity where
  line : Int
  column : Int
  complexity : Int

/-- The complexity checker's answers. -/
structure ComplexityReport where
  syntaxError : Bool := false
  graphs : List Complexity := []

/-- A file that the documentation checker is to look at. -/
structure DocumentationFile where
  name : String
  codes : List String
  ignoreDecorators : Value

/-- What the documentation checker finds. -/
structure DocumentationError where
  code : String
  message : String
  line : Int

/-- The documentation checker's answers. -/
structure DocumentationReport where
  files : List DocumentationFile := []
  errors : List DocumentationError := []
  parseError : Bool := false

/-- The output of a linter that runs as a process, and the programs that cannot be started. A linter can also be run in
the service's own process, which may fail. -/
structure ProcessReport where
  output : String := ""
  errors : String := ""
  missing : List String := []
  inProcess : Except Fault String := .ok ""

/-- How a command behaves: it cannot be started, or it ends with a status and an output. -/
structure CommandAnswer where
  command : List String
  output : String := ""
  status : Int := 0
  startError : Option Int := none

/-- **All answers.** What the style checker reports depends on the checks that are registered with it. -/
structure Answers where
  engine : Engine := {}
  parser : Parser := {}
  refactoring : Refactoring := {}
  autopep8 : Except Fault Formatted := .ok {}
  yapf : Except Fault Formatted := .ok {}
  names : List NameEvent := []
  style : Checks → StyleReport := fun _ => {}
  complexity : ComplexityReport := {}
  documentation : DocumentationReport := {}
  flake8 : ProcessReport := {}
  pylint : ProcessReport := {}
  importErrors : List String := []
  kill : Option Int := none
  commands : List CommandAnswer := []
  bind : Except Fault Unit := .ok ()

end EditorService.Tool
