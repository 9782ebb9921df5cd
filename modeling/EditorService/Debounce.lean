import EditorService.Value.Access

/-!
# Debouncing

A debounced action does not run at once. A request starts a timer for its key, and stops the one that the key waits for
already. A table says which timer each key waits for. When a timer expires, its key leaves the table and its action
runs. So of several requests for one key only the last one runs.

Timers are numbered in the order in which they are started, and no number is used twice. Other timers may run on the
same clock; they have no key.
-/

namespace EditorService

/-- **A clock**: the timers that are armed, the oldest first, and for each key the timer that it waits for. -/
structure Clock (κ τ : Type) where
  armed : Table Nat τ := []
  waiting : Table κ Nat := []
  next : Nat := 0

namespace Clock

variable {κ τ : Type} [DecidableEq κ]

/-- Starts a timer. -/
def start (c : Clock κ τ) (t : τ) : Clock κ τ := { c with armed := c.armed ++ [(c.next, t)], next := c.next + 1 }

/-- Stops a timer. -/
def stop (c : Clock κ τ) (number : Nat) : Clock κ τ := { c with armed := Table.erase c.armed number }

/-- **Starts a timer for a key**, and stops the one that the key waits for. -/
def request (c : Clock κ τ) (key : κ) (t : τ) : Clock κ τ :=
  let quiet := match Table.get? c.waiting key with
    | some old => c.stop old
    | none => c
  { quiet.start t with waiting := Table.put c.waiting key c.next }

/-- Takes a key out of the table, where it must be. -/
def release? (c : Clock κ τ) (key : κ) : Option (Clock κ τ) :=
  if Table.has c.waiting key then some { c with waiting := Table.erase c.waiting key } else none

end Clock

namespace Debounce

/-- **A call that waits**: its key and its arguments. -/
structure Call where
  key : Value
  arguments : Table String Value

/-- A value as a key: a truth value counts as the number it stands for. Lists and dictionaries cannot be keys. -/
def asKey : Value → Except Fault Value
  | .list _ => .error .wrongType
  | .dict _ => .error .wrongType
  | .bool b => .ok (.int (if b then 1 else 0))
  | v => .ok v

/-- **The arguments of a call by name**: first those given by place, then those given by name. Each name must get
exactly one. -/
def bindArguments (names : List String) (given : List Value) (named : List (String × Value)) :
    Except Fault (Table String Value) :=
  let placed := names.zip given
  let bound := placed ++ named
  if names.length < given.length then .error .wrongType
  else if named.any fun n => !names.contains n.1 || Table.has placed n.1 then .error .wrongType
  else if names.any fun n => !Table.has bound n then .error .wrongType
  else .ok bound

/-- The key of a call: the argument of the name that calls are keyed by, or null where they are not. -/
def keyOf (keyedBy : Option String) (arguments : Table String Value) : Except Fault Value := do
  match keyedBy with
  | some name => if name == "" then return .null else asKey (← Value.item (.dict arguments) name)
  | none => return .null

/-- **A call of a debounced action** with the given names of arguments. -/
def call (keyedBy : Option String) (names : List String) (c : Clock Value Call) (given : List Value)
    (named : List (String × Value)) : Except Fault (Clock Value Call) := do
  let arguments ← bindArguments names given named
  let key ← keyOf keyedBy arguments
  return c.request key { key, arguments }

/-- **Lets all armed timers expire**, the oldest first, and gives the calls that run. -/
def expireAll (c : Clock Value Call) : List Call × Clock Value Call :=
  c.armed.foldl (fun (ran, c) (number, call) =>
    match (c.stop number).release? call.key with
    | some c => (ran ++ [call], c)
    | none => (ran, c.stop number)) ([], c)

end Debounce

end EditorService
