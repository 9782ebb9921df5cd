import EditorService.Version.Command
import EditorService.Version.Describe

/-!
# What a checkout says about its version

Four questions go to the version control system of a checkout: whether there is one, the name of the revision, its full
hash, and its date. A checkout without a tag is asked for the number of its revisions instead. The answers are the
pieces from which a version is put together.
-/

namespace EditorService.Version

/-- Where a revision stands: the nearest tag, without the prefix of tags, the steps from there, and the date. -/
structure Position where
  tag : Option String
  distance : Int
  date : String
  deriving DecidableEq, Repr

/-- **The pieces of a version.** When the name of the revision cannot be understood, there is a reason in the place of
a position. -/
structure Pieces where
  long : String
  short : String
  dirty : Bool
  position : Except String Position

/-- Pieces as a record. -/
def Pieces.record (p : Pieces) : Value :=
  .dict (
    [("long", .str p.long), ("short", .str p.short)] ++
    (match p.position with
    | .error reason => [("error", .str reason), ("dirty", .bool p.dirty)]
    | .ok at' => [
      ("error", .null), ("dirty", .bool p.dirty), ("closest-tag", Value.ofText? at'.tag), ("distance", .int at'.distance),
      ("date", .str at'.date)]))

/-- A date with the first blank made into a `T` and the next one dropped. -/
def isoDate (date : String) : String :=
  match Text.splitFirst ' ' (Text.trim date.toList) with
  | (day, none) => String.ofList day
  | (day, some rest) =>
    match Text.splitFirst ' ' rest with
    | (time, none) => String.ofList (day ++ 'T' :: time)
    | (time, some zone) => String.ofList (day ++ 'T' :: time ++ zone)

/-- The names under which the version control system may be started. -/
def programNames (platform : String) : List String := if platform == "win32" then ["git.cmd", "git.exe"] else ["git"]

/-- How many characters of a full hash stand for it. -/
def shortLength : Nat := 7

/-- A text without a prefix that it must have. -/
def withoutPrefix? (start s : String) : Option String := (Text.dropPrefix? start.toList s.toList).map String.ofList

/-- Why the nearest tag is not used. -/
def foreignTag (tag tagPrefix : String) : String := "tag '" ++ tag ++ "' doesn't start with prefix '" ++ tagPrefix ++ "'"

/-- Reads the output of a count. -/
def readCount (output : Option String) : Except Fault Int :=
  match output with
  | none => .error .wrongType
  | some s =>
    match Text.readInt? s.toList with
    | some n => .ok n
    | none => .error (.badInteger s)

/-- Asks the version control system in a directory. -/
def ask (root : String) (arguments : List String) : Routine Outcome := do
  run (programNames (← get).host.platform) arguments (some root) false

/-- The output of a question that must have one. -/
def askFor (root : String) (arguments : List String) (reason : String) : Routine String := do
  match (← ask root arguments).output with
  | some output => return Text.trimmed output
  | none => Routine.fail (.notApplicable reason)

/-- The date of the current revision. -/
def askDate (root : String) : Routine String := do
  match (← ask root ["show", "-s", "--format=%ci", "HEAD"]).output with
  | some date => return isoDate date
  | none => throw .memberMissing

/-- The pieces that the name and the hash of a revision give. -/
def piecesOf (tagPrefix root : String) (verbose : Bool) (described full : String) : Routine Pieces := do
  let (name, dirty) := takeDirty described.toList
  let pieces (short : String) (position : Except String Position) : Pieces :=
    { long := full, short, dirty, position }
  let guess := String.ofList (full.toList.take shortLength)
  if name.contains '-' then
    match Described.ofText? name with
    | none => return pieces guess (.error ("unable to parse git-describe output: '" ++ described ++ "'"))
    | some d =>
      let tag := String.ofList d.tag
      match withoutPrefix? tagPrefix tag with
      | none =>
        Routine.printIf verbose (foreignTag tag tagPrefix)
        return pieces guess (.error (foreignTag tag tagPrefix))
      | some closest =>
        let date ← askDate root
        return pieces (String.ofList d.hash) (.ok { tag := some closest, distance := d.steps, date })
  else
    let distance ← Routine.ofExcept (readCount (← ask root ["rev-list", "HEAD", "--count"]).output)
    let date ← askDate root
    return pieces guess (.ok { tag := none, distance, date })

/-- **Asks a checkout for the pieces of its version.** -/
def checkoutPieces (tagPrefix root : String) (verbose : Bool) : Routine Pieces := do
  let found ← ask root ["rev-parse", "--git-dir"]
  if found.status != some 0 then
    Routine.printIf verbose ("Directory " ++ root ++ " not under git control")
    Routine.fail (.notApplicable "'git rev-parse --git-dir' returned error")
  let described ← askFor root ["describe", "--tags", "--dirty", "--always", "--long", "--match", tagPrefix ++ "*"]
    "'git describe' failed"
  let full ← askFor root ["rev-parse", "HEAD"] "'git rev-parse' failed"
  piecesOf tagPrefix root verbose described full

end EditorService.Version
