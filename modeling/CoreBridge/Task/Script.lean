import CoreBridge.Task.Future

/-!
# Scripted futures

A script lists what a future does in its polls, one after the other; when it has
run out the future stays pending. Scripts serve both kinds of task, and an
ending meant for the other kind is a panic.
-/
namespace CoreBridge.Task

/-- How a scripted poll ends. -/
inductive ScriptEnding where
  | pending
  /-- Ends a task that yields its result as it is collected. -/
  | plain (result : TaskResult)
  /-- Ends a task whose value and error are written to the wire. -/
  | typed (result : Except Wire.Value Wire.Value)
  | panicked (panic : Panic)

/-- A scripted poll: how often it wakes its own waker, whether it hands the
waker on, and how it ends. -/
structure ScriptTurn where
  wakes : Nat := 0
  handsOn : Bool := false
  ending : ScriptEnding

structure Script where
  turns : List ScriptTurn
  /-- Whether the future wakes its last waker when it is dropped. -/
  wakeOnDrop : Bool := false

namespace Script

variable {α : Type}

/-- The future that follows the script, with `result` for what its endings mean. -/
def future (script : Script) (result : ScriptEnding → Ending α) : Future α where
  onPoll n :=
    match script.turns[n]? with
    | none => { ending := .pending }
    | some turn =>
      { wakes := List.replicate turn.wakes (.own n)
        handsOn := turn.handsOn
        ending := result turn.ending }
  onDrop polls := if script.wakeOnDrop && polls != 0 then [.own (polls - 1)] else []

/-- The future of a task that yields its result as it is collected. -/
def plain (script : Script) : Future TaskResult := script.future fun
  | .pending => .pending
  | .plain result => .ready result
  | .typed _ => .panicked (.text "typed result")
  | .panicked panic => .panicked panic

/-- The future of a task whose value and error are written to the wire. -/
def typed (script : Script) : Future (Except Wire.Value Wire.Value) := script.future fun
  | .pending => .pending
  | .plain _ => .panicked (.text "untyped result")
  | .typed result => .ready result
  | .panicked panic => .panicked panic

/-- The task future, written to the wire when it ends if it is to be `lowered`. -/
def task (script : Script) (lowered : Bool) : Future TaskResult :=
  if lowered then script.typed.lowered else script.plain

end Script
end CoreBridge.Task
