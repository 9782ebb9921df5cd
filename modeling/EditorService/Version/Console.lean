import EditorService.Host
import EditorService.Value.Display

/-!
# The console of the version tool

The version tool prints, starts commands, and reads and writes files. A routine is a computation that does so: its state
is a console. A routine may stop with a fault; what it printed, wrote and started before stays.
-/

namespace EditorService.Version

/-- **A console**: the surroundings, the script that was started, the tool's own file where it has one, the calls to
the outside so far, and what was printed. -/
structure Console where
  host : Host := {}
  script : String := "setup.py"
  tool : Option String := none
  calls : List Value := []
  output : String := ""
  errors : String := ""

/-- **A routine.** -/
abbrev Routine (α : Type) := ExceptT Fault (StateM Console) α

namespace Routine

/-- Runs a routine at a console. -/
def perform {α : Type} (routine : Routine α) (console : Console) : Except Fault α × Console :=
  Id.run (StateT.run (ExceptT.run routine) console)

/-- A routine that does not need a console. -/
def ofExcept {α : Type} (r : Except Fault α) : Routine α :=
  match r with
  | .ok a => pure a
  | .error f => throw f

/-- Stops with a fault of the version tool. -/
def fail {α : Type} (cause : VersionFault) : Routine α := throw (.version cause)

/-- Prints a line. -/
def print (line : String) : Routine Unit := modify fun c => { c with output := c.output ++ line ++ "\n" }

/-- Prints a line if asked to. -/
def printIf (verbose : Bool) (line : String) : Routine Unit := if verbose then print line else pure ()

/-- Prints a line where errors go. -/
def warn (line : String) : Routine Unit := modify fun c => { c with errors := c.errors ++ line ++ "\n" }

/-- Writes down a call to the outside. -/
def note (fn : String) (args : List (String × Value)) : Routine Unit :=
  modify fun c => { c with calls := c.calls ++ [.dict (("fn", .str fn) :: args)] }

/-- The files. -/
def files : Routine FileTree := do return (← get).host.files

/-- The current directory. -/
def here : Routine String := do return (← files).current

/-- Reads a file as text. -/
def read (path : String) : Routine String := do ofExcept ((← files).read path)

/-- Changes the files. -/
def changeFiles (change : FileTree → Except Fault FileTree) : Routine Unit := do
  let files ← ofExcept (change (← files))
  modify fun c => { c with host := { c.host with files } }

/-- Writes a text to a file. -/
def write (path text : String) : Routine Unit := changeFiles fun t => t.write path text

/-- Adds a text at the end of a file. -/
def append (path text : String) : Routine Unit := changeFiles fun t => t.append path text

/-- Removes a file. -/
def remove (path : String) : Routine Unit := changeFiles fun t => t.remove path

/-- **Tries one way after the other.** A way that does not apply says so by its fault; any other fault stops the
search. -/
def firstOf {α : Type} (ways : List (Routine α)) (otherwise : Routine α) : Routine α :=
  ways.foldr (fun way rest => tryCatch way fun
    | .version (.notApplicable _) => rest
    | f => throw f) otherwise

end Routine

end EditorService.Version
