import EditorService.Version.Console

/-!
# Running commands

A command may be known under several names. They are tried in order until one can be started. Its output, without the
blanks at its ends, counts only when it ends with status zero.
-/

namespace EditorService.Version

/-- **How a run ended**: the output, where there is one, and the status, where the command could be started. -/
structure Outcome where
  output : Option String := none
  status : Option Int := none
  deriving DecidableEq, Repr

/-- A blank of the output of a command, taken as octets. -/
def isOutputBlank (c : Char) : Bool := c == ' ' || (9 ≤ c.toNat && c.toNat ≤ 13)

/-- The output of a command without the blanks at its ends. -/
def trimOutput (s : String) : String :=
  String.ofList (Text.dropEndWhile isOutputBlank (s.toList.dropWhile isOutputBlank))

/-- The number of the error that says that a program does not exist. -/
def programMissing : Int := 2

/-- How a command behaves: as the first answer says whose words it starts with. -/
def answerTo (answers : List Tool.CommandAnswer) (words : List String) : Tool.CommandAnswer :=
  (answers.find? fun a => a.command.isPrefixOf words).getD { command := words, startError := some programMissing }

/-- A list of words as a reader sees it. -/
def displayWords (words : List String) : String := (Value.ofTexts words).display

/-- **Runs a command** under the first of its names that can be started. -/
def run (names arguments : List String) (directory : Option String) (verbose : Bool) : Routine Outcome :=
  go names
where
  /-- Tries the names that are left. -/
  go : List String → Routine Outcome
    | [] => do
      Routine.printIf verbose ("unable to find command, tried " ++ displayWords names)
      return {}
    | name :: rest => do
      let words := name :: arguments
      Routine.note "Popen" [("cmd", Value.ofTexts words), ("cwd", Value.ofText? directory)]
      let answer := answerTo (← get).host.answers.commands words
      match answer.startError with
      | some error =>
        if error == programMissing then go rest
        else
          Routine.printIf verbose ("unable to run " ++ displayWords words)
          Routine.printIf verbose ("[Errno " ++ toString error ++ "] cannot run")
          return {}
      | none =>
        let output := trimOutput answer.output
        if answer.status == 0 then return { output, status := some 0 }
        else
          Routine.printIf verbose ("unable to run " ++ displayWords words ++ " (error)")
          Routine.printIf verbose ("stdout was " ++ output)
          return { status := some answer.status }

end EditorService.Version
