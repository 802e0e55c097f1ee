import CoreBridge.Boundary.Trace
import CoreBridge.Table
import CoreBridge.Task.Future
import CoreBridge.Task.Waker

/-!
# The task store

The core keeps the futures of its asynchronous operations here. Nothing drives
a task but the host's polls:

- a poll of a task that ended, was cancelled or is unknown answers ready and
  owes no continuation;
- a poll that answers pending owes one continuation, which is invoked when the
  poll's waker is woken or the task is cancelled, and no longer owed once the
  task is polled again or freed;
- the outcome of a task is handed out once.

Handles count the tasks that were spawned. The count is a natural number here
and has 64 bits at the boundary: the two agree below 2^64 spawns, a bound that
no run comes near, and until then no handle comes again.
-/
namespace CoreBridge.Task

/-- Whether a value is collected in this shape. -/
def TaskValue.fits : TaskValue → Flavour → Bool
  | .void, .void | .word _, .word | .buffer _, .buffer => true
  | _, _ => false

/-- A task that has not been freed. -/
structure LiveTask where
  /-- The future, until it ended or the task was cancelled. -/
  future : Option (Future TaskResult)
  /-- The numbers of the wakers of the future's polls, in order. -/
  wakers : Array Nat := #[]
  /-- The outcome, until it is handed out. -/
  output : Option TaskResult := none
  cancelled : Bool := false
  /-- The waker of the last poll, while its continuation may be owed. -/
  pending : Option Nat := none

/-- The future that the next poll of the task runs, if there is one. -/
def LiveTask.runnable? (task : LiveTask) : Option (Future TaskResult) :=
  if task.cancelled || task.output.isSome then none else task.future

structure Store where
  nextHandle : Nat := 1
  tasks : Table Nat LiveTask := {}
  /-- Every waker that was handed to a future, by number. -/
  wakers : Array Waker := #[]
  /-- The numbers of the wakers that futures handed on, in order. -/
  handedOn : Array Nat := #[]

/-- An operation's answer, the store after it, and what happened meanwhile. -/
structure Step (α : Type) where
  value : α
  store : Store
  trace : Trace := []

namespace Store

/-- Wakes the waker with this number; an armed one invokes the continuation with `result`. -/
def wakeWith (s : Store) (waker : Nat) (result : Int) : Step Unit :=
  match s.wakers[waker]? with
  | none => ⟨(), s, []⟩
  | some w =>
    ⟨(), { s with wakers := s.wakers.setIfInBounds waker w.woken },
      if w.isArmed then [.fired w.data result] else []⟩

/-- Wakes a waker as a future or its holder does, by reference or by value. -/
def wake (s : Store) (waker : Nat) : Step Unit := s.wakeWith waker pollMaybeReady

/-- Wakes the wakers named, in order; `own` are the wakers of the future that names them. -/
def wakeAll (s : Store) (own : Array Nat) : List WakerRef → Step Unit
  | [] => ⟨(), s, []⟩
  | ref :: refs =>
    let first := match ref.number? own with
      | some waker => s.wake waker
      | none => ⟨(), s, []⟩
    let others := first.store.wakeAll own refs
    ⟨(), others.store, first.trace ++ others.trace⟩

/-- The continuation of the waker with this number is no longer owed. -/
def disarm (s : Store) (waker : Nat) : Store :=
  { s with wakers := s.wakers.modify waker Waker.disarm }

def disarm? (s : Store) : Option Nat → Store
  | some waker => s.disarm waker
  | none => s

def setTask (s : Store) (handle : Nat) (task : LiveTask) : Store :=
  { s with tasks := s.tasks.set handle task }

/-- Wakes a waker that a future handed on, by its position among those. -/
def wakeHandedOn (s : Store) (position : Nat) : Step Unit :=
  match s.handedOn[position]? with
  | some waker => s.wake waker
  | none => ⟨(), s, []⟩

/-- Whether the handle has been issued and not freed. -/
def isLive (s : Store) (handle : Nat) : Bool := s.tasks.contains handle

/-- Registers a future under a fresh handle. -/
def spawn (s : Store) (future : Future TaskResult) : Step Nat :=
  ⟨s.nextHandle,
    { s with
      nextHandle := s.nextHandle + 1
      tasks := s.tasks.set s.nextHandle { future := some future } }, []⟩

/-- Registers a future whose value and error are written to the wire when it ends. -/
def spawnLowered (s : Store) (future : Future (Except Wire.Value Wire.Value)) : Step Nat :=
  s.spawn future.lowered

/-- Drops a future that was polled once per waker in `own`. -/
def dropFuture (s : Store) (handle : Nat) (own : Array Nat) (future : Future TaskResult) :
    Step Unit :=
  let woken := s.wakeAll own (future.onDrop own.size)
  ⟨(), woken.store, .futureDropped handle :: woken.trace⟩

def dropFuture? (s : Store) (handle : Nat) (own : Array Nat) :
    Option (Future TaskResult) → Step Unit
  | some future => s.dropFuture handle own future
  | none => ⟨(), s, []⟩

/-- Ends a task in the poll whose waker is `waker`: nothing is owed any more,
the future is dropped and the outcome kept. -/
def finish (s : Store) (handle waker : Nat) (task : LiveTask) (future : Future TaskResult)
    (result : TaskResult) : Step Int :=
  let s := s.disarm waker
  let s := s.setTask handle { task with future := none, output := some result }
  let dropped := s.dropFuture handle task.wakers future
  ⟨pollReady, dropped.store, dropped.trace⟩

/-- Answers pending: the continuation is owed from now on, or due at once. -/
def suspend (s : Store) (handle waker : Nat) (task : LiveTask) : Step Int :=
  let s := s.setTask handle { task with pending := some waker }
  match s.wakers[waker]? with
  | none => ⟨pollPending, s, []⟩
  | some w =>
    ⟨pollPending, { s with wakers := s.wakers.setIfInBounds waker w.arm },
      if w.isDue then [.fired w.data pollMaybeReady] else []⟩

/-- Runs the future's own part of a poll, with a fresh waker; the answer is the
task with that waker among those of its polls. -/
def runTurn (s : Store) (data : Nat) (task : LiveTask) (future : Future TaskResult) :
    Step LiveTask :=
  let waker := s.wakers.size
  let turn := future.onPoll task.wakers.size
  let task := { task with wakers := task.wakers.push waker }
  let s := { s with
    wakers := s.wakers.push { data }
    handedOn := if turn.handsOn then s.handedOn.push waker else s.handedOn }
  let woken := s.wakeAll task.wakers turn.wakes
  ⟨task, woken.store, woken.trace⟩

/-- Answers a poll whose future's own part is over. -/
def settle (s : Store) (handle waker : Nat) (task : LiveTask) (future : Future TaskResult) :
    Ending TaskResult → Step Int
  | .pending => s.suspend handle waker task
  | .ready result => s.finish handle waker task future result
  | .panicked panic => s.finish handle waker task future (.error (.panic panic.message))

/-- Polls the future of a task. -/
def pollFuture (s : Store) (handle data : Nat) (task : LiveTask) (future : Future TaskResult) :
    Step Int :=
  let ran := s.runTurn data task future
  let ending := (future.onPoll task.wakers.size).ending
  let settled := ran.store.settle handle s.wakers.size ran.value future ending
  { settled with trace := ran.trace ++ settled.trace }

/-- Disarms the previous poll of a task. -/
def supersede (s : Store) (handle : Nat) (task : LiveTask) : Store :=
  (s.disarm? task.pending).setTask handle { task with pending := none }

/-- Polls a task; `data` is what its continuation will be invoked with. -/
def poll (s : Store) (handle data : Nat) : Step Int :=
  match s.tasks.get? handle with
  | none => ⟨pollReady, s, [.log .error s!"future_poll on unknown task handle {handle}"]⟩
  | some task =>
    let s := s.supersede handle task
    match task.runnable? with
    | some future => s.pollFuture handle data { task with pending := none } future
    | none => ⟨pollReady, s, []⟩

/-- Cancels a task: its future is dropped, its outcome forgotten, and a poll
that is still owed its continuation gets it. -/
def cancel (s : Store) (handle : Nat) : Step Unit :=
  match s.tasks.get? handle with
  | none => ⟨(), s, [.log .warn s!"future_cancel on unknown task handle {handle}"]⟩
  | some task =>
    let s := s.setTask handle
      { task with future := none, output := none, cancelled := true, pending := none }
    let dropped := s.dropFuture? handle task.wakers task.future
    let released := match task.pending with
      | some waker => dropped.store.wakeWith waker pollReady
      | none => ⟨(), dropped.store, []⟩
    ⟨(), released.store,
      dropped.trace ++ released.trace ++ [.log .debug s!"Cancelled task {handle}"]⟩

/-- Forgets a task; a continuation that is owed is not invoked any more. -/
def free (s : Store) (handle : Nat) : Step Unit :=
  match s.tasks.get? handle with
  | none => ⟨(), s, [.log .warn s!"future_free on unknown task handle {handle}"]⟩
  | some task =>
    let s := { s with tasks := s.tasks.erase handle }
    (s.disarm? task.pending).dropFuture? handle task.wakers task.future

/-- What collecting the outcome of a task comes to. -/
inductive Collected where
  | value (v : TaskValue)
  | domain (bytes : Bytes)
  | panicked (message : String)
  | cancelled
deriving DecidableEq, Repr

/-- Takes the outcome of a task. -/
def takeOutput (s : Store) (handle : Nat) : Collected × Store :=
  match s.tasks.get? handle with
  | none => (.panicked s!"unknown task handle {handle}", s)
  | some task =>
    if task.cancelled then (.cancelled, s)
    else
      let taken := s.setTask handle { task with output := none }
      match task.output with
      | none => (.panicked s!"task {handle} completed before it was ready", s)
      | some (.ok value) => (.value value, taken)
      | some (.error (.domain bytes)) => (.domain bytes, taken)
      | some (.error (.panic message)) => (.panicked message, taken)

/-- Collects the outcome of a task in the given shape; an outcome of another
shape is taken all the same. -/
def complete (s : Store) (flavour : Flavour) (handle : Nat) : Collected × Store :=
  match s.takeOutput handle with
  | (.value v, s) =>
    if v.fits flavour then (.value v, s)
    else
      (.panicked
        s!"task {handle} completed as {flavour.name} but produced {v.describe}", s)
  | other => other

end Store
end CoreBridge.Task
