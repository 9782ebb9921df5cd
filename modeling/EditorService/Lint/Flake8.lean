import EditorService.Lint.OutputLine
import EditorService.Value.Display
import EditorService.Lint.Process

/-!
# The linter flake8

The linter runs as a process. Its options come from the settings. A list of codes to ignore may carry comments after a
semicolon; they are cut off.
-/

namespace EditorService.Lint.Flake8

open EditorService.Protocol (Range)

/-- **An option as an argument.** An option that is not set has none, and one that is switched off an empty place. -/
def argument (name : String) (value : Value) : Except Fault (List Value) :=
  match value with
  | .null => .ok []
  | .list _ => do return [.str ("--" ++ name ++ "=" ++ Text.joined "," (← value.texts))]
  | .bool true => .ok [.str ("--" ++ name)]
  | .bool false => .ok [.null]
  | v => .ok [.str ("--" ++ name ++ "=" ++ v.plain)]

/-- **The arguments for a list of options.** The first says that the document comes from the input. -/
def arguments (options : List (String × Value)) : Except Fault (List Value) := do
  let given ← options.mapM fun (name, value) => argument name value
  return .str "-" :: given.flatten

/-- A character that ends a list of codes: neither a letter or digit of the basic alphabet, nor `_`, nor a comma. -/
def endsCodes (c : Char) : Bool := !(c.isAlphanum || c == '_' || c == ',')

/-- What stays after the rest of a line is cut off: the next line, from its first word character on. -/
def afterComment (s : List Char) : List Char :=
  (s.dropWhile (· != '\n')).dropWhile fun c => !Text.isWordChar c

/-- What follows the last semicolon of a run of such characters, if the run holds one. -/
def afterLastSemicolon? : List Char → Option (List Char)
  | [] => none
  | c :: rest =>
    if endsCodes c then
      match afterLastSemicolon? rest with
      | some after => some after
      | none => if c == ';' then some rest else none
    else none

theorem afterComment_length (s : List Char) : (afterComment s).length ≤ s.length :=
  Nat.le_trans (List.dropWhile_sublist _).length_le (List.dropWhile_sublist _).length_le

theorem afterLastSemicolon?_length {s after : List Char} (h : afterLastSemicolon? s = some after) :
    after.length < s.length := by
  induction s with
  | nil => simp [afterLastSemicolon?] at h
  | cons c rest ih =>
    rw [afterLastSemicolon?] at h
    split at h
    · split at h
      · rename_i found hr
        cases h
        exact Nat.lt_succ_of_lt (ih hr)
      · split at h
        · cases h
          exact Nat.lt_succ_self _
        · simp at h
    · simp at h

/-- **A list of codes without its comments.** -/
def withoutComments : List Char → List Char
  | [] => []
  | c :: rest =>
    match _h : afterLastSemicolon? (c :: rest) with
    | some after => withoutComments (afterComment after)
    | none => c :: withoutComments rest
termination_by s => s.length
decreasing_by
  · have h1 := afterLastSemicolon?_length ‹_›
    have h2 := afterComment_length after
    omega
  · simp

/-- The arguments with which the process runs: empty places fall out, and codes to ignore lose their comments. -/
def cleaned (args : List Value) : List Value :=
  args.filterMap fun a =>
    match a with
    | .null => none
    | .str s => some (.str (if Text.hasPrefix "--ignore=" s then String.ofList (withoutComments s.toList) else s))
    | v => some v

/-- The settings that become options, by the names of the options. -/
def optionNames : List (String × String) :=
  [("config", "config"), ("exclude", "exclude"), ("filename", "filename"), ("hang-closing", "hangClosing"),
   ("ignore", "ignore"), ("max-line-length", "maxLineLength"), ("select", "select")]

/-- The path of a configuration file: one that is given is made absolute. -/
def configPath (host : Host) (config : Value) : Except Fault Value :=
  if config.truthy then do
    let path ← config.text
    return .str (if Text.hasPrefix "/" path then path else host.resolvePath path)
  else .ok config

/-- The program to run: one that looks like a path and is no file is resolved. -/
def programPath (host : Host) (program : String) : String :=
  if !host.files.isFile program && program.toList.contains '/' then host.resolvePath program else program

/-- **The diagnostic of one finding.** It reaches to the end of the line. -/
def diagnostic (lines : List (List Char)) (o : OutputLine) : Except Fault Diagnostic := do
  let line := (← OutputLine.number o.line) - 1
  let column := (← OutputLine.number o.column) - 1
  let stop ← lineLength lines line
  return {
    source := "flake8"
    code := some (.str (String.ofList o.code))
    range := Range.onLine line column stop
    message := .str (String.ofList (o.code ++ ' ' :: o.message))
    severity := .warning }

/-- **Reads the linter's output.** -/
def parse (lines : List (List Char)) (output : List Char) : Except Fault (List Diagnostic) :=
  findings [' '] (diagnostic lines) output

/-- The same for a document, whose lines are looked at only when there is a finding. -/
def parseFor (v : DocumentView) (output : String) : Job Value := do
  let files ← Job.files
  let found ← Job.ofExcept (findings [' '] (fun o => do
    let _ ← OutputLine.number o.line
    let _ ← OutputLine.number o.column
    diagnostic (← v.document.lines files) o) output.toList)
  return .list (found.map Diagnostic.toValue)

/-- **Lints a document.** -/
def lint (v : View) : Job Value := do
  let config ← v.ownConfig
  let settings ← Job.pluginSettings config "flake8" (some v.document.document.path)
  let options ← Job.ofExcept (optionNames.mapM fun (name, setting) => do return (name, ← settings.getD setting .null))
  let host ← Job.host
  let options ← Job.ofExcept (options.mapM fun (name, value) => do
    return (name, ← if name == "config" then configPath host value else pure value))
  let program ← Job.ofExcept (settings.getD "executable" (.str "flake8"))
  let args ← Job.ofExcept (arguments options)
  let program ← Job.ofExcept program.text
  let output ← runLinter v.document host.answers.flake8 (.str (programPath host program)) "flake8" (cleaned args)
  parseFor v.document output

end EditorService.Lint.Flake8
