import EditorService.Version.Command
import EditorService.Proofs.Steps

/-!
# Routines, run one part after the other

A routine of the version tool reads and changes a console. A part that succeeds hands its result and its console on to the
next one (`Routine.perform_bind_ok`).

A command is known under several names, and `Succeeds` says that it can be started under one of them, the ones before being
unknown to the system, and ends with status zero. Then running it gives its output and leaves the console as it was, up
to the calls that are written down (`run_of_succeeds`).
-/

namespace EditorService.Version

namespace Routine

variable {α β : Type}

/-- A routine of two parts, the first of which succeeds. -/
theorem perform_bind_ok {first : Routine α} {c c' : Console} {a : α} (h : first.perform c = (.ok a, c'))
    (second : α → Routine β) : (first >>= second).perform c = (second a).perform c' := by
  have hrun : Id.run (StateT.run (ExceptT.run first) c) = (.ok a, c') := h
  simp only [perform, run_bind, hrun]

theorem perform_ofExcept (r : Except Fault α) (c : Console) : (ofExcept r).perform c = (r, c) := by
  cases r with
  | ok a => rfl
  | error f => rfl

end Routine

/-- A console with more calls written down. -/
def Console.called (c : Console) (calls : List Value) : Console := { c with calls := c.calls ++ calls }

@[simp] theorem Console.host_called (c : Console) (calls : List Value) : (c.called calls).host = c.host := rfl

theorem Console.called_called (c : Console) (calls more : List Value) :
    (c.called calls).called more = c.called (calls ++ more) := by
  simp only [called, List.append_assoc]

/-- **A command succeeds** under the first of its names that the system knows: it can be started, and ends with status
zero. What it writes is `output`. -/
inductive Succeeds (commands : List Tool.CommandAnswer) (arguments : List String) (output : String) : List String → Prop
  where
  | here {name : String} {rest : List String} (hstart : (answerTo commands (name :: arguments)).startError = none)
      (hstatus : (answerTo commands (name :: arguments)).status = 0)
      (houtput : (answerTo commands (name :: arguments)).output = output) : Succeeds commands arguments output (name :: rest)
  | later {name : String} {rest : List String}
      (hmissing : (answerTo commands (name :: arguments)).startError = some programMissing)
      (hrest : Succeeds commands arguments output rest) : Succeeds commands arguments output (name :: rest)

/-- The call that starting a command writes down. -/
def startCall (words : List String) (directory : Option String) : Value :=
  .dict [("fn", .str "Popen"), ("cmd", Value.ofTexts words), ("cwd", Value.ofText? directory)]

/-- **Running a command that succeeds** gives its output, without the blanks at its ends. -/
theorem run_of_succeeds {names arguments : List String} {output : String} {c : Console}
    (h : Succeeds c.host.answers.commands arguments output names) (directory : Option String) (verbose : Bool) :
    ∃ calls, (run names arguments directory verbose).perform c =
      (.ok { output := some (trimOutput output), status := some 0 }, c.called calls) := by
  -- The names that were tried before matter to messages only.
  suffices hgo : ∀ tried left (c : Console), Succeeds c.host.answers.commands arguments output left →
      ∃ calls, (run.go tried arguments directory verbose left).perform c =
        (.ok { output := some (trimOutput output), status := some 0 }, c.called calls) from hgo names names c h
  intro tried left
  induction left with
  | nil =>
    intro c h
    cases h
  | cons name rest ih =>
    intro c h
    let started := c.called [startCall (name :: arguments) directory]
    have hnote : (Routine.note "Popen" [("cmd", Value.ofTexts (name :: arguments)),
        ("cwd", Value.ofText? directory)]).perform c = (.ok (), started) := rfl
    have hget : (get : Routine Console).perform started = (.ok started, started) := rfl
    rw [run.go, Routine.perform_bind_ok hnote, Routine.perform_bind_ok hget]
    cases h with
    | here hstart hstatus houtput =>
      simp only [started, Console.host_called, hstart, hstatus, houtput]
      exact ⟨_, rfl⟩
    | later hmissing hrest =>
      simp only [started, Console.host_called, hmissing]
      obtain ⟨calls, hcalls⟩ := ih started hrest
      rw [Console.called_called] at hcalls
      exact ⟨_, hcalls⟩

end EditorService.Version
