import EditorService.Version.Console
import EditorService.Version.Pieces
import EditorService.Version.Style

/-!
# Expanded keywords

An archive that the version control system made holds three keywords in its version file: the names of the revision,
its full hash, and its date. They are read from lines like `git_full = "…"`. From them comes a version: the first tag,
in order, that has the prefix of tags.

Keywords that were not expanded start with `$Format`; they say nothing.
-/

namespace EditorService.Version

/-! ## Reading keywords from a file -/

/-- What stands between the first and the last of the quotes that a text starts with. -/
def inQuotes? : List Char → Option (List Char)
  | '"' :: rest => (Text.splitLast '"' (rest.takeWhile (· != '\n'))).1
  | _ => none

/-- **The quoted text after an equals sign**: the first such sign that has one. -/
def assigned? : List Char → Option (List Char)
  | [] => none
  | c :: rest => if c == '=' then (inQuotes? (Text.trimStart rest)).or (assigned? rest) else assigned? rest

/-- The keywords, each with how its line starts. -/
def keywordStarts : List (String × String) :=
  [("refnames", "git_refnames ="), ("full", "git_full ="), ("date", "git_date =")]

/-- Adds what a line says to the keywords. -/
def addKeyword (found : Table String Value) (line : List Char) : Table String Value :=
  match keywordStarts.find? fun k => Text.startsWith k.2.toList (Text.trim line) with
  | some (key, _) =>
    match assigned? line with
    | some text => Table.put found key (.str (String.ofList text))
    | none => found
  | none => found

/-- Whether a fault comes from the file system. -/
def isFileFault : Fault → Bool
  | .fileMissing _ => true
  | .isDirectory _ => true
  | _ => false

/-- **The keywords in a file.** A file that cannot be opened has none. -/
def readKeywords (files : FileTree) (path : String) : Except Fault Value :=
  match files.read path with
  | .ok text => .ok (.dict ((Text.fileLines text.toList).foldl addKeyword []))
  | .error f => if isFileFault f then .ok (.dict []) else .error f

/-! ## The version that keywords give -/

/-- The text that a keyword is, without the blanks at its ends. -/
def keywordText (v : Value) : Except Fault String :=
  match v with
  | .str s => .ok (Text.trimmed s)
  | _ => .error .memberMissing

/-- Puts a text into its place among texts that are in order. -/
def insertText (s : String) : List String → List String
  | [] => [s]
  | t :: rest => if s < t then s :: t :: rest else t :: insertText s rest

/-- Texts in order. -/
def sortTexts (texts : List String) : List String := texts.foldr insertText []

/-- The names of a revision, each once. -/
def namesIn (refnames : String) : List String :=
  let isParenthesis (c : Char) : Bool := c == '(' || c == ')'
  let inner := Text.dropEndWhile isParenthesis (refnames.toList.dropWhile isParenthesis)
  ((Text.split ',' inner).map fun s => String.ofList (Text.trim s)).eraseDups

/-- What marks a name as a tag. -/
def tagMark : String := "tag: "

/-- The names that are marked as tags, without the mark. -/
def markedTags (names : List String) : List String := names.filterMap (withoutPrefix? tagMark)

/-- The names that may be tags: those with a digit. -/
def likelyTags (names : List String) : List String := names.filter fun n => n.toList.any Text.isDigit

/-- **The version that keywords give.** -/
def fromKeywords (keywords : Value) (tagPrefix : String) (verbose : Bool) : Routine Value := do
  if !keywords.truthy then Routine.fail (.notApplicable "no keywords at all, weird")
  let date ← Routine.ofExcept (keywords.getD "date" .null)
  let date ← match date with
    | .null => pure Value.null
    | .str s => pure (.str (isoDate s))
    | _ => throw .memberMissing
  let refnames ← Routine.ofExcept (do keywordText (← keywords.item "refnames"))
  if Text.hasPrefix "$Format" refnames then
    Routine.printIf verbose "keywords are unexpanded, not using"
    Routine.fail (.notApplicable "unexpanded keywords, not a git-archive tarball")
  let names := namesIn refnames
  let tags ← chooseTags names
  let tags := (sortTexts tags).eraseDups
  Routine.printIf verbose ("likely tags: " ++ Text.joined "," tags)
  match tags.findSome? (withoutPrefix? tagPrefix) with
  | some version =>
    Routine.printIf verbose ("picking " ++ version)
    let full ← Routine.ofExcept (do keywordText (← keywords.item "full"))
    return Info.record { version := .str version, revision := .str full, dirty := .bool false, date }
  | none =>
    Routine.printIf verbose "no suitable tags, using unknown + full revision id"
    let full ← Routine.ofExcept (do keywordText (← keywords.item "full"))
    return Info.record
      { version := .str "0+unknown", revision := .str full, dirty := .bool false, error := .str "no suitable tags" }
where
  /-- The marked tags, or else the names that may be tags. -/
  chooseTags (names : List String) : Routine (List String) :=
    let marked := markedTags names
    if marked.isEmpty then do
      let likely := likelyTags names
      Routine.printIf verbose
        ("discarding '" ++ Text.joined "," (names.filter fun n => !likely.contains n) ++ "', no digits")
      return likely
    else return marked

end EditorService.Version
