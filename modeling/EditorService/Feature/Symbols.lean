import EditorService.Feature.Engine
import EditorService.Protocol.Kind

/-!
# Symbols of a document

The outline of a document: the names it defines, each with its kind, its range and what contains it. The engine lists
the names; a class also lists its members, which are looked at right after it. A place at which a member was announced
is shown once and not again.
-/

namespace EditorService.Feature

open EditorService.Tool (Definition Extent)
open EditorService.Protocol (SymbolKind Range)

/-- The kind of symbol that a kind of definition is. -/
def symbolKinds : Table String SymbolKind :=
  [("none", .variable), ("type", .classKind), ("tuple", .classKind), ("dict", .classKind),
   ("dictionary", .classKind), ("function", .function), ("lambda", .function), ("generator", .function),
   ("class", .classKind), ("instance", .classKind), ("method", .method), ("builtin", .classKind),
   ("builtinfunction", .function), ("module", .module), ("file", .file), ("xrange", .array), ("slice", .classKind),
   ("traceback", .classKind), ("frame", .classKind), ("buffer", .array), ("dictproxy", .classKind),
   ("funcdef", .function), ("property", .property), ("import", .module), ("keyword", .variable),
   ("constant", .constant), ("variable", .variable), ("value", .variable), ("param", .variable),
   ("statement", .variable), ("boolean", .boolean), ("int", .number), ("longlean", .number), ("float", .number),
   ("complex", .number), ("string", .string), ("unicode", .string), ("list", .array), ("field", .field)]

/-- The kind of symbol of a kind of definition, when it has one. -/
def symbolKind? (kind : String) : Option SymbolKind := Table.get? symbolKinds kind

/-- **A symbol.** -/
structure DocumentSymbol where
  name : String
  container : Option String
  uri : String
  range : Range
  kind : SymbolKind
  deriving DecidableEq, Repr

/-- A symbol as a dictionary. -/
def DocumentSymbol.toValue (s : DocumentSymbol) : Value :=
  .dict [
    ("name", .str s.name),
    ("containerName", Value.ofText? s.container),
    ("location", .dict [("uri", .str s.uri), ("range", s.range.toValue)]),
    ("kind", .int s.kind.code)]

/-- **Whether a definition is shown at all.** Parameters and the unused name are not, nor what has no kind. -/
def isShown (d : Definition) : Bool := d.kind != "param" && d.name != "_" && (symbolKind? d.kind).isSome

/-- The range of a definition. -/
def extentRange (e : Extent) : Range := ⟨⟨e.startLine - 1, e.startColumn⟩, ⟨e.endLine - 1, e.endColumn⟩⟩

/-- What contains a definition: its parent, unless that is the module. -/
def container? (d : Definition) : Option String :=
  match d.parent with
  | .ok (some p) =>
    match p.parent with
    | .ok (some _) => some p.name
    | _ => none
  | _ => none

/-- The kind that a class announces for a member. -/
def announcedKind (d : Definition) : String :=
  if d.kind == "function" then "method" else if d.kind == "statement" then "field" else d.kind

/-- What the walk through the definitions remembers: the symbols so far, the places that are done, and the kinds that
were announced for places. -/
structure Outline where
  symbols : List DocumentSymbol := []
  done : List Extent := []
  announced : Table Extent String := []

/-- The kind of symbol for a definition, given what was announced for its place. -/
def kindOf (d : Definition) (announced : Option String) : Except Fault SymbolKind :=
  let kind := if d.kind == "statement" && Text.hasPrefix "self" d.description then some "field" else announced
  let kind := kind.getD d.kind
  match symbolKind? kind with
  | some k => .ok k
  | none => .error (.keyMissing kind)

/-- Whether a definition belongs to the module, as far as its full name tells. -/
def belongs (moduleName : String) (d : Definition) : Bool :=
  match d.fullName with
  | some name => Text.hasPrefix moduleName name || Text.hasPrefix "__main__" name
  | none => true

/-- What the symbols of a document depend on. -/
structure OutlineRules where
  uri : String
  path : String
  moduleName : String
  withImports : Bool

/-- Whether a definition is one of the document's symbols. -/
def OutlineRules.accepts (r : OutlineRules) (d : Definition) : Bool :=
  (r.withImports || belongs r.moduleName d) && isShown d && d.modulePath == some r.path

/-- Adds a definition to the outline. -/
def Outline.add (o : Outline) (r : OutlineRules) (d : Definition) : Except Fault Outline := do
  let announced := Table.get? o.announced d.extent
  let kind ← kindOf d announced
  let symbol : DocumentSymbol := {
    name := d.name, container := container? d, uri := r.uri, range := extentRange d.extent, kind }
  return { o with
    symbols := o.symbols ++ [symbol]
    done := if announced.isSome then d.extent :: o.done else o.done }

/-- Announces the members of a class. -/
def Outline.announce (o : Outline) (members : List Definition) : Outline :=
  { o with announced := Table.putAll o.announced (members.map fun m => (m.extent, announcedKind m)) }

mutual

/-- The number of definitions in a definition, its members included. -/
def weight : Definition → Nat
  | { members, .. } => 1 + weightOf members

/-- The number of definitions in what a class says of its members. -/
def weightOf : Except Fault (List Definition) → Nat
  | .ok ds => weights ds
  | .error _ => 0

/-- The number of definitions in a list. -/
def weights : List Definition → Nat
  | [] => 0
  | d :: ds => weight d + weights ds

end

theorem weight_eq (d : Definition) : weight d = 1 + weightOf d.members := by
  cases d
  rfl

theorem weights_append (as bs : List Definition) : weights (as ++ bs) = weights as + weights bs := by
  induction as with
  | nil => simp [weights]
  | cons a as ih => simp [weights, ih, Nat.add_assoc]

theorem weights_members {d : Definition} {ms : List Definition} (h : d.members = .ok ms) :
    weights ms < weight d := by
  rw [weight_eq, h, weightOf]
  omega

theorem weight_pos (d : Definition) : 0 < weight d := by
  rw [weight_eq]
  omega

/-- **Walks through definitions.** The members of a class that is shown come right after it. -/
def outline (r : OutlineRules) (o : Outline) (ds : List Definition) : Except Fault Outline :=
  match ds with
  | [] => .ok o
  | d :: rest =>
    if !r.accepts d || o.done.contains d.extent then outline r o rest
    else do
      let o ← o.add r d
      if d.kind == "class" then
        match _h : d.members with
        | .ok members => outline r (o.announce members) (members ++ rest)
        | .error _ => outline r o rest
      else outline r o rest
termination_by weights ds
decreasing_by
  all_goals simp only [weights, weights_append]
  · have := weight_pos d
    omega
  · have := weights_members _h
    omega
  · have := weight_pos d
    omega
  · have := weight_pos d
    omega

/-- **The symbols of a document.** -/
def symbols (config : Config) (v : DocumentView) : Job Value := do
  let settings ← Job.pluginSettings config "jedi_symbols" none
  let allScopes ← Job.ofExcept (settings.getD "all_scopes" (.bool true))
  let withImports ← Job.ofExcept (settings.getD "include_import_symbols" (.bool true))
  let directory := Path.normalized (Path.directoryOf v.document.path)
  let beside := !(← Job.files).isFile (Path.appended directory "__init__.py")
  let definitions ← v.namesIn (.bool beside) allScopes (.bool true) (.bool false)
  let rules : OutlineRules := {
    uri := v.document.uri, path := v.document.path, moduleName := v.document.dottedName
    withImports := withImports.truthy }
  let o ← Job.ofExcept (outline rules {} definitions)
  return .list (o.symbols.map DocumentSymbol.toValue)

end EditorService.Feature
