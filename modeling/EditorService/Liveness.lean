import EditorService.Job

/-!
# Whether a process is alive

A process is asked with a signal that does nothing. A refusal for lack of permission shows that it is there.
-/

namespace EditorService.Liveness

/-- The error number for a lack of permission. -/
def notPermitted : Int := 1

/-- **Whether the process of a number is alive.** -/
def isAlive (pid : Value) : Job Bool := do
  if (← Job.ofExcept pid.number) < 0 then return false
  Job.note "kill" [("pid", pid), ("sig", .int 0)]
  match (← Job.answers).kill with
  | none => return true
  | some error => return error == notPermitted

end EditorService.Liveness
