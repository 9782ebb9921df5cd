import EditorService.Table
import EditorService.Text.Number
import EditorService.Text.Quoted
import EditorService.Text.Split

/-!
# The command line

An argument is a switch when it starts with a dash and is not a negative number. A long switch may be shortened as long
as it stays unique, and may carry its value after an equals sign. Short switches may be written together. What is left
over at the end is refused.

A name that fits several switches is refused before anything else is looked at. All other faults are found in the order
in which the arguments stand.
-/

namespace EditorService.CommandLine

/-- **The switches.** -/
inductive Switch where
  | help | tcp | host | port | checkParent | logConfig | logFile | verbose
  deriving DecidableEq, Repr

namespace Switch

/-- The names of a switch. -/
def names : Switch → List String
  | .help => ["-h", "--help"]
  | .tcp => ["--tcp"]
  | .host => ["--host"]
  | .port => ["--port"]
  | .checkParent => ["--check-parent-process"]
  | .logConfig => ["--log-config"]
  | .logFile => ["--log-file"]
  | .verbose => ["-v", "--verbose"]

/-- What a switch is for. -/
def purpose : Switch → String
  | .help => "show this help message and exit"
  | .tcp => "Use TCP server instead of stdio"
  | .host => "Bind to this address"
  | .port => "Bind to this port"
  | .checkParent =>
    "Check whether parent process is still alive using os.kill(ppid, 0) and auto shut down language server process " ++
      "when parent process is not alive.Note that this may not work on a Windows machine."
  | .logConfig => "Path to a JSON file containing Python logging config."
  | .logFile =>
    "Redirect logs to the given file instead of writing to stderr.Has no effect if used with --log-config."
  | .verbose => "Increase verbosity of log output, overrides log config file"

/-- All switches in order. -/
def all : List Switch := [.help, .tcp, .host, .port, .checkParent, .logConfig, .logFile, .verbose]

/-- All names in order, with the switches they name. -/
def byName : Table String Switch := all.flatMap fun s => s.names.map fun n => (n, s)

/-- Whether a switch takes a value. -/
def takesValue : Switch → Bool
  | .host | .port | .logConfig | .logFile => true
  | _ => false

/-- A switch as messages name it. -/
def shown (s : Switch) : String := Text.joined "/" s.names

end Switch

/-- **What the command line asks for.** -/
structure Options where
  tcp : Bool := false
  host : String := "127.0.0.1"
  port : Int := 2087
  checkParent : Bool := false
  logConfig : Option String := none
  logFile : Option String := none
  verbosity : Nat := 0
  deriving DecidableEq, Repr

/-- An early end: its code, and the message that is written. -/
structure Exit where
  code : Nat
  message : String
  deriving DecidableEq, Repr

/-- The name by which the program is called. -/
def programName : String := "pyls"

/-- The end for a command line that cannot be read. -/
def Exit.refusal (reason : String) : Exit := { code := 2, message := programName ++ ": error: " ++ reason }

/-- The end for a switch that is used wrongly. -/
def Exit.misuse (s : Switch) (reason : String) : Exit := .refusal ("argument " ++ s.shown ++ ": " ++ reason)

/-- What is attached to a name: with an equals sign, or right behind a short name. -/
structure Attached where
  equals : Bool
  text : List Char
  deriving DecidableEq, Repr

/-- **An argument by its kind.** -/
inductive Argument where
  | plain
  | unknown
  | switch (s : Switch) (long : Bool) (attached : Option Attached)
  deriving DecidableEq, Repr

/-! ## Kinds of arguments -/

/-- Whether a text is a negative number: digits, or digits with a point and more digits behind it. -/
def isNegativeNumber (s : List Char) : Bool :=
  match s with
  | '-' :: number =>
    let number := if number.getLast? == some '\n' then number.dropLast else number
    match number.dropWhile Text.isDigit with
    | [] => !number.isEmpty
    | '.' :: places => !places.isEmpty && places.all Text.isDigit
    | _ => false
  | _ => false

/-- The switches that a name may stand for, with their full names. -/
def candidates (name : List Char) : List (String × Switch) :=
  Switch.byName.filter fun e => Text.startsWith name e.1.toList

/-- The kind of an argument that starts with two dashes. -/
def longKind (text : List Char) : Except Exit Argument :=
  let name := text.takeWhile (· != '=')
  let attached := match text.dropWhile (· != '=') with
    | _ :: value => some { equals := true, text := value }
    | [] => none
  match candidates name with
  | [] => .ok (if text.contains ' ' then .plain else .unknown)
  | [(_, s)] => .ok (.switch s true attached)
  | several =>
    .error (.refusal ("ambiguous option: " ++ String.ofList text ++ " could match " ++
      Text.joined ", " (several.map (·.1))))

/-- The kind of an argument that starts with one dash. -/
def shortKind (text : List Char) : Argument :=
  match Table.get? Switch.byName (String.ofList (text.take 2)) with
  | some s => .switch s false (some { equals := false, text := text.drop 2 })
  | none => if isNegativeNumber text || text.contains ' ' then .plain else .unknown

/-- The name in front of an equals sign, if it names a switch, with what follows the sign. -/
def beforeEquals? (text : List Char) : Option (Switch × List Char) := do
  let s ← Table.get? Switch.byName (String.ofList (text.takeWhile (· != '=')))
  match text.dropWhile (· != '=') with
  | _ :: value => some (s, value)
  | [] => none

/-- Whether a name is a long one. -/
def isLong (text : List Char) : Bool := Text.startsWith ['-', '-'] text

/-- **The kind of an argument.** -/
def kind (text : List Char) : Except Exit Argument :=
  match text with
  | '-' :: _ :: _ =>
    match Table.get? Switch.byName (String.ofList text), beforeEquals? text with
    | some s, _ => .ok (.switch s (isLong text) none)
    | none, some (s, value) => .ok (.switch s (isLong text) (some { equals := true, text := value }))
    | none, none => if isLong text then longKind text else .ok (shortKind text)
  | _ => .ok .plain

/-- The kinds of all arguments. Behind two dashes alone there are no switches. -/
def kinds : List String → Except Exit (List (String × Argument))
  | [] => .ok []
  | text :: rest =>
    if text == "--" then .ok ((text, .unknown) :: rest.map fun t => (t, .plain))
    else do return (text, ← kind text.toList) :: (← kinds rest)

/-! ## Reading -/

/-- Sets what a switch sets. -/
def apply (o : Options) (s : Switch) (value : String) : Except Exit Options :=
  match s with
  | .help => .error { code := 0, message := "" }
  | .tcp => .ok { o with tcp := true }
  | .host => .ok { o with host := value }
  | .port =>
    match Text.readInt? value.toList with
    | some port => .ok { o with port }
    | none => .error (.misuse s ("invalid int value: " ++ Text.quoted value))
  | .checkParent => .ok { o with checkParent := true }
  | .logConfig =>
    if o.logFile.isSome then .error (.misuse s ("not allowed with argument " ++ Switch.logFile.shown))
    else .ok { o with logConfig := some value }
  | .logFile =>
    if o.logConfig.isSome then .error (.misuse s ("not allowed with argument " ++ Switch.logConfig.shown))
    else .ok { o with logFile := some value }
  | .verbose => .ok { o with verbosity := o.verbosity + 1 }

/-- The refusal of something attached to a switch that takes no value. -/
def ignored (s : Switch) (text : List Char) : Exit :=
  .misuse s ("ignored explicit argument " ++ Text.quoted (String.ofList text))

/-- Whether nothing may be attached to a switch: it has no value, and no further short switch can follow. -/
def isClosed (equals : Bool) (next : Char) : Bool := equals || next == '-'

/-- The short switch of a letter. -/
def shortSwitch? (c : Char) : Option Switch := Table.get? Switch.byName (String.ofList ['-', c])

/-- What several short switches written together stand for, and what is left over of them. -/
def together (s : Switch) (equals : Bool) : List Char → Except Exit (List (Switch × String) × List String)
  | [] => if s.takesValue then .ok ([(s, "")], []) else .error (ignored s [])
  | [c] =>
    if s.takesValue then .ok ([(s, String.ofList [c])], [])
    else if isClosed equals c then .error (ignored s [c])
    else match shortSwitch? c with
      | none => .ok ([(s, "")], [String.ofList ['-', c]])
      | some next => .ok ([(s, ""), (next, "")], [])
  | c :: d :: rest =>
    if s.takesValue then .ok ([(s, String.ofList (c :: d :: rest))], [])
    else if isClosed equals c then .error (ignored s (c :: d :: rest))
    else match shortSwitch? c with
      | none => .ok ([(s, "")], [String.ofList ('-' :: c :: d :: rest)])
      | some next => do
        let (more, left) ← if d == '=' then together next true rest else together next false (d :: rest)
        return ((s, "") :: more, left)

/-- Sets what several switches set. -/
def applyAll (o : Options) : List (Switch × String) → Except Exit Options
  | [] => .ok o
  | (s, value) :: rest => do applyAll (← apply o s value) rest

/-- The switches of one argument that has something attached. -/
def attachedSwitches (s : Switch) (long : Bool) (attached : Attached) :
    Except Exit (List (Switch × String) × List String) :=
  if s.takesValue then .ok ([(s, String.ofList attached.text)], [])
  else if long then .error (ignored s attached.text)
  else together s attached.equals attached.text

/-- Reads arguments of known kinds. The second part of the answer is what is left over. -/
def readAll (o : Options) (left : List String) : List (String × Argument) → Except Exit (Options × List String)
  | [] => .ok (o, left)
  | (text, .plain) :: rest => readAll o (left ++ [text]) rest
  | (text, .unknown) :: rest => readAll o (left ++ [text]) rest
  | (_, .switch s long (some attached)) :: rest => do
    let (switches, more) ← attachedSwitches s long attached
    readAll (← applyAll o switches) (left ++ more) rest
  | (_, .switch s _ none) :: rest =>
    if s.takesValue then
      match rest with
      | (value, .plain) :: rest => do readAll (← apply o s value) left rest
      | _ => .error (.misuse s "expected one argument")
    else do readAll (← apply o s "") left rest

/-- **Reads a command line.** -/
def parse (arguments : List String) : Except Exit Options := do
  let (o, left) ← readAll {} [] (← kinds arguments)
  if left.isEmpty then return o
  else throw (.refusal ("unrecognized arguments: " ++ Text.joined " " left))

/-- The text that the help switch writes. -/
def help : String :=
  "usage: " ++ programName ++ " [options]\n\nPython Language Server\n\noptions:\n" ++
    String.join (Switch.all.map fun s => "  " ++ Text.joined ", " s.names ++ "  " ++ s.purpose ++ "\n")

end EditorService.CommandLine
