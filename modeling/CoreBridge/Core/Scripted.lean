import CoreBridge.Core.Machine

/-!
# Scripted cores

A scripted core answers some of its entry points as it is told and the others
as the core of this library does. So a host can be driven against a core that
does not keep its word.
-/
namespace CoreBridge.Core

/-- A status to write: without a code none is written, without a payload the
null buffer is, and a payload without bytes has an allocation all the same. -/
structure ScriptedStatus where
  code : Option Int := none
  payload : Option Bytes := none
deriving DecidableEq, Repr

/-- The status as written, its payload allocated. -/
def ScriptedStatus.write (s : ScriptedStatus) (heap : Heap) : CallStatus × Heap :=
  match s.code, s.payload with
  | none, _ => ({}, heap)
  | some code, none => (⟨code, .null⟩, heap)
  | some code, some bytes =>
    let (payload, heap) := heap.store bytes
    (⟨code, payload⟩, heap)

/-- One scripted poll: its status and answer, and the results that the
continuation is invoked with before the poll returns. -/
structure ScriptedPoll where
  status : ScriptedStatus := {}
  answer : Int := pollReady
  fires : List Int := []
deriving Repr

/-- The scripted task entry points. -/
structure TaskScript where
  cancel : ScriptedStatus := {}
  free : ScriptedStatus := {}
  void : ScriptedStatus := {}
  word : ScriptedStatus × Nat := ({}, 0)
  buffer : ScriptedStatus × Option Bytes := ({}, none)

/-- The entry points that are scripted. -/
structure Script where
  fromBytes : Option ScriptedStatus := none
  version : Option (ScriptedStatus × Option Nat) := none
  continuation : Option ScriptedStatus := none
  tasks : Option TaskScript := none

/-- The state of a scripted core: that of the core behind it, and the polls to come. -/
structure ScriptedState where
  base : State := {}
  polls : List ScriptedPoll := []

namespace ScriptedState

/-- Runs a transition of the core behind the script. -/
def onBase {α : Type} (f : State → Reply α × State) (s : ScriptedState) : Reply α × ScriptedState :=
  let (reply, base) := f s.base
  (reply, { s with base })

/-- Answers `value` with a scripted status. -/
def answer {α : Type} (status : ScriptedStatus) (value : α) (s : ScriptedState) :
    Reply α × ScriptedState :=
  let (status, heap) := status.write s.base.heap
  ({ value, status }, { s with base := { s.base with heap } })

/-- A buffer that holds the bytes, or the null buffer. -/
def buffer (bytes : Option Bytes) (s : ScriptedState) : Buffer × ScriptedState :=
  match bytes with
  | none => (.null, s)
  | some bytes =>
    let (buffer, heap) := s.base.heap.store bytes
    (buffer, { s with base := { s.base with heap } })

/-- The next scripted poll; a script that has run out answers ready. -/
def poll (id : Nat) (s : ScriptedState) : Reply Int × ScriptedState :=
  let next := s.polls.headD {}
  let (reply, s) := answer next.status next.answer { s with polls := s.polls.tail }
  ({ reply with trace := next.fires.map fun result => .fired id result }, s)

/-- The scripted completions. -/
def complete (script : TaskScript) (flavour : Flavour) (s : ScriptedState) :
    Reply Collection × ScriptedState :=
  match flavour with
  | .void => answer script.void .void s
  | .word => answer script.word.1 (.word script.word.2) s
  | .buffer =>
    let (buffer, s) := buffer script.buffer.2 s
    answer script.buffer.1 (.buffer buffer) s

/-- An operation that starts a task for `future`, or else answers `handle` as if
it had, and then writes a status. -/
def start (status : ScriptedStatus) (future : Option (Task.Future Task.TaskResult)) (handle : Nat)
    (s : ScriptedState) : Reply Nat × ScriptedState :=
  let (spawned, s) := match future with
    | some future => onBase (fun s => s.onTasks (·.spawn future)) s
    | none => ({ value := handle }, s)
  let (reply, s) := answer status spawned.value s
  ({ reply with trace := .started :: (spawned.trace ++ reply.trace) }, s)

end ScriptedState

/-- What a scripted entry point of an operation does: write a status, or panic in its body. -/
inductive ScriptedCall where
  | writes (status : ScriptedStatus)
  | panics (panic : Panic)

/-- Answers `value` as scripted; a panic answers `fallback`. -/
def ScriptedCall.answer {α : Type} (call : ScriptedCall) (fallback value : α) (s : ScriptedState) :
    Reply α × ScriptedState :=
  match call with
  | .writes status => ScriptedState.answer status value s
  | .panics panic => s.onBase fun s => s.onHeap (run true fallback (.panicked panic))

open ScriptedState in
/-- The entry points of a scripted core. -/
def scripted (script : Script) : EntryPoints ScriptedState where
  alloc size := onBase (machine.alloc size)
  fromBytes lent := match script.fromBytes with
    | some status => answer status .null
    | none => onBase (machine.fromBytes lent)
  reserve buffer additional := onBase (machine.reserve buffer additional)
  contractVersion := match script.version with
    | some (status, version) => answer status (version.getD 0)
    | none => onBase machine.contractVersion
  setContinuation callback := match script.continuation with
    | some status => answer status ()
    | none => onBase (machine.setContinuation callback)
  poll task id := match script.tasks with
    | some _ => ScriptedState.poll id
    | none => onBase (machine.poll task id)
  cancel task := match script.tasks with
    | some tasks => answer tasks.cancel ()
    | none => onBase (machine.cancel task)
  complete flavour task := match script.tasks with
    | some tasks => ScriptedState.complete tasks flavour
    | none => onBase (machine.complete flavour task)
  freeTask task := match script.tasks with
    | some tasks => answer tasks.free ()
    | none => onBase (machine.freeTask task)

end CoreBridge.Core
