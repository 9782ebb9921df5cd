import EditorService.Version.Keywords
import EditorService.Value.Json

/-!
# The version file of a release

A release holds a version file with what is known about the version, written between two marks as one item a line.
`versionText` writes such a file, and `embedded?` finds the text between the marks again: from the first opening mark to
the last closing mark.
-/

namespace EditorService.Version

/-- What stands before the known facts. -/
def versionHead : String := Text.unlines [
  "",
  "# This file was generated by 'versioneer.py' (0.18) from",
  "# revision-control system data, or from the parent directory name of an",
  "# unpacked source archive. Distribution tarballs contain a pre-generated copy",
  "# of this file.",
  "",
  "import json",
  ""]

/-- The mark before the known facts. -/
def openingMark : String := "version_json = '''\n"

/-- The mark after the known facts. -/
def closingMark : String := "'''  # END VERSION_JSON"

/-- What stands after the known facts. -/
def versionTail : String := Text.unlines [
  "",
  "",
  "",
  "def get_versions():",
  "    return json.loads(version_json)"]

/-- **The text of a version file.** -/
def versionText (known : Value) : String :=
  versionHead ++ openingMark ++ known.renderIndented 0 ++ "\n" ++ closingMark ++ versionTail

/-- What follows the first occurrence of `part`. -/
def afterFirst? (part : List Char) : List Char → Option (List Char)
  | [] => if part.isEmpty then some [] else none
  | c :: rest => (Text.dropPrefix? part (c :: rest)).or (afterFirst? part rest)

/-- What stands before the last occurrence of `part`. -/
def beforeLast? (part s : List Char) : Option (List Char) := (afterFirst? part.reverse s.reverse).map List.reverse

/-- **The text between the marks.** -/
def embedded? (s : List Char) : Option (List Char) :=
  (afterFirst? openingMark.toList s).bind (beforeLast? closingMark.toList)

/-- **What a version file says.** -/
def readVersionFile (path : String) : Routine Value := do
  match (← Routine.files).read path with
  | .error f => if isFileFault f then Routine.fail (.notApplicable "unable to read _version.py") else throw f
  | .ok text =>
    match embedded? text.toList with
    | none => Routine.fail (.notApplicable "no version_json in _version.py")
    | some json =>
      match Value.parse? (String.ofList json) with
      | some v => return v
      | none => throw .badJson

/-- **Replaces a version file** by one that says what is known. -/
def writeVersionFile (path : String) (known : Value) : Routine Unit := do
  Routine.remove path
  Routine.write path (versionText known)
  let version ← Routine.ofExcept (known.item "version")
  Routine.print ("set " ++ path ++ " to '" ++ version.plain ++ "'")

end EditorService.Version
