import EditorService.Fault

/-!
# Definitions

What the analysis engine says about a name: where it is defined, what kind of thing it is, its documentation, its
signatures and parameters, and the definitions around and inside it. Asking for what is around or inside may fail.
-/

namespace EditorService.Tool

/-- The stretch of source that defines a name: lines from one, columns from zero. -/
structure Extent where
  startLine : Int := 1
  startColumn : Int := 0
  endLine : Int := 1
  endColumn : Int := 0
  deriving DecidableEq, Repr, Inhabited

/-- **A definition**, as the engine reports it. -/
structure Definition where
  name : String
  kind : String
  fullName : Option String
  description : String
  modulePath : Option String
  line : Option Int
  column : Option Int
  index : Option Int
  params : List Definition
  extent : Extent
  parent : Except Fault (Option Definition)
  members : Except Fault (List Definition)
  doc : String
  rawDoc : String
  signatures : List Definition
  text : String
  isDefinition : Bool
  isBuiltIn : Bool

end EditorService.Tool
