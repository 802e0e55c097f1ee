import CoreBridge.Core.Allocator
import CoreBridge.Task.Store

/-!
# The entry points of a core

`EntryPoints` is what a host needs of a core to drive it: one transition of the
core's state per entry point, each answering with a value, a status and what
happened meanwhile. Giving a buffer back changes nothing that a core shows, so
it is not among them; the host accounts for it.

`machine` is the core of this library. Its state is an allocator and a task
store. Other cores, which answer what they like, are other instances.
-/
namespace CoreBridge.Core

/-- What collecting a task hands over. -/
inductive Collection where
  | void
  | word (n : Nat)
  | buffer (b : Buffer)
deriving DecidableEq, Repr

/-- The transitions by which a host drives a core with states `σ`. -/
structure EntryPoints (σ : Type) where
  alloc : (size : Nat) → σ → Reply Buffer × σ
  fromBytes : Lent → σ → Reply Buffer × σ
  reserve : Buffer → (additional : Nat) → σ → Reply Buffer × σ
  contractVersion : σ → Reply Nat × σ
  /-- Installs a continuation, told from others by a number. -/
  setContinuation : (callback : Nat) → σ → Reply Unit × σ
  poll : (task id : Nat) → σ → Reply Int × σ
  cancel : (task : Nat) → σ → Reply Unit × σ
  complete : Flavour → (task : Nat) → σ → Reply Collection × σ
  freeTask : (task : Nat) → σ → Reply Unit × σ

/-- The state of the core of this library. -/
structure State where
  heap : Heap := {}
  tasks : Task.Store := {}
  /-- The continuation, which the first call to install one decides. -/
  continuation : Option Nat := none

namespace State

/-- Runs a step of the allocator. -/
def onHeap {α : Type} (s : State) (f : Heap → Reply α × Heap) : Reply α × State :=
  let (reply, heap) := f s.heap
  (reply, { s with heap })

/-- Runs a step of the task store, which itself never fails. -/
def onTasks {α : Type} (s : State) (f : Task.Store → Task.Step α) : Reply α × State :=
  let step := f s.tasks
  ({ value := step.value, trace := step.trace }, { s with tasks := step.store })

/-- Installs a continuation unless there is one; another one is ignored. -/
def setContinuation (callback : Nat) (s : State) : Reply Unit × State :=
  match s.continuation with
  | none => ({ value := () }, { s with continuation := some callback })
  | some current =>
    ({ value := ()
       trace := if current = callback then []
         else [.log .warn "Ignoring a second, different continuation callback"] }, s)

/-- What a shape of collection hands over unless it succeeds. -/
def nothing : Flavour → Collection
  | .void => .void
  | .word => .word 0
  | .buffer => .buffer .null

/-- Collects a task and reports what came of it. -/
def complete (hasStatus : Bool) (flavour : Flavour) (task : Nat) (s : State) :
    Reply Collection × State :=
  let (collected, tasks) := s.tasks.complete flavour task
  let s := { s with tasks }
  match collected with
  | .value .void => ({ value := .void }, s)
  | .value (.word n) => ({ value := .word n }, s)
  | .value (.buffer bytes) =>
    let (buffer, heap) := s.heap.store bytes
    ({ value := .buffer buffer }, { s with heap })
  | .domain bytes => s.onHeap (writeStatus hasStatus .error bytes (nothing flavour))
  | .panicked message => s.onHeap (writePanic hasStatus message (nothing flavour))
  | .cancelled => s.onHeap (writeStatus hasStatus .cancelled [] (nothing flavour))

end State

/-- The entry points of the core of this library. -/
def machine : EntryPoints State where
  alloc size s := s.onHeap (alloc true size)
  fromBytes lent s := s.onHeap (fromBytes true lent)
  reserve buffer additional s := s.onHeap (reserve true buffer additional)
  contractVersion s := ({ value := contractVersion }, s)
  setContinuation callback s := s.setContinuation callback
  poll task id s := s.onTasks (·.poll task id)
  cancel task s := s.onTasks (·.cancel task)
  complete flavour task s := s.complete true flavour task
  freeTask task s := s.onTasks (·.free task)

end CoreBridge.Core
