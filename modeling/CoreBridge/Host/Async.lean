import CoreBridge.Host.CoreBuffer

/-!
# Asynchronous calls

A host future drives a task of the core: it polls, waits for the continuation
of a poll that answered pending, and polls again, until the core says ready.
The task is then completed and freed. If a poll itself fails, or the future is
dropped while it waits, the task is cancelled and freed instead.

`Drive` is one task being driven, `Call` the whole life of a call. Both advance
in steps; `Drive.run` takes steps until the future has to wait or has ended.

The counts of a `PollReport` are natural numbers here and have 32 bits in the
host: the two agree below 2^32 polls of one task (`pollBudget`). Nothing that a
call does depends on them.
-/
namespace CoreBridge.Host

/-- How a task was driven: the polls made and the continuations received. -/
structure PollReport where
  polls : Nat := 0
  wakeups : Nat := 0
deriving DecidableEq, Repr

/-- The polls that one report can count. -/
abbrev pollBudget : Nat := 0x100000000

/-- Where the driving of a task stands. -/
inductive Drive where
  /-- The next poll is due. -/
  | polling (report : PollReport)
  /-- The poll with this id answered pending. -/
  | waiting (id : Nat) (report : PollReport)
  | finished (report : PollReport)
  /-- A poll reported a failure. -/
  | failed (fault : Fault)
deriving DecidableEq, Repr

namespace Drive

variable {σ : Type}

/-- Closes the channel of a poll. -/
def unregister (id : Nat) (armed : Bool) : HostM σ Unit :=
  HostM.onWakes fun r => ((), r.unregister id armed)

/-- Makes a poll under a fresh id, for the host future `call`. -/
def poll (core : Core.EntryPoints σ) (call task : Nat) (report : PollReport) : HostM σ Drive := do
  let id ← HostM.onWakes fun r => r.register call
  let report := { report with polls := report.polls + 1 }
  match ← HostM.call (core.poll task id) fun answer => [.polled task id answer] with
  | .error fault =>
    unregister id false
    return .failed fault
  | .ok answer =>
    if answer = pollReady then
      unregister id false
      return .finished report
    else return .waiting id report

/-- Takes the result of a poll, if it has arrived; otherwise the host future has to wait. -/
def receive (id : Nat) (report : PollReport) : HostM σ Drive := do
  match ← HostM.onWakes fun r => (r.received? id, r) with
  | none =>
    HostM.onWakes fun r => ((), r.suspend id)
    return .waiting id report
  | some result =>
    unregister id true
    let report := { report with wakeups := report.wakeups + 1 }
    return if result = pollReady then .finished report else .polling report

/-- Advances until the host future has to wait or has ended, in at most `fuel` polls. -/
def run (core : Core.EntryPoints σ) (call task : Nat) : (fuel : Nat) → Drive → HostM σ Drive
  | 0, d => return d
  | fuel + 1, d => do
    let d ← match d with
      | .polling report => poll core call task report
      | d => pure d
    match d with
    | .waiting id report =>
      match ← receive id report with
      | .polling report => run core call task fuel (.polling report)
      | d => return d
    | d => return d

/-- Drops the host future; a continuation that is still owed finds its poll abandoned. -/
def abandon : Drive → HostM σ Unit
  | .waiting id _ => unregister id true
  | _ => return ()

end Drive

/-- Collects the outcome of a task in the given shape. -/
def collect {σ ε : Type} (core : Core.EntryPoints σ) (decode : Bytes → Except Wire.DecodeError ε)
    (flavour : Flavour) (task : Nat) : HostM σ (Except (CallError ε) Core.Collection) := do
  HostM.observe [.complete flavour task]
  HostM.callFallible decode (core.complete flavour task)

/-- Cancels a task. -/
def cancelTask {σ : Type} (core : Core.EntryPoints σ) (task : Nat) :
    HostM σ (Except Fault Unit) := do
  HostM.observe [.cancel task]
  HostM.call (core.cancel task)

/-- Frees a task. -/
def freeTask {σ : Type} (core : Core.EntryPoints σ) (task : Nat) : HostM σ (Except Fault Unit) := do
  HostM.observe [.freeTask task]
  HostM.call (core.freeTask task)

/-- What an asynchronous call starts, how it is collected and how its error is read. -/
structure Operation (σ ε : Type) where
  start : σ → Reply Nat × σ
  flavour : Flavour
  decode : Bytes → Except Wire.DecodeError ε

/-- Where an asynchronous call stands. -/
inductive Call (ε : Type) where
  | unstarted
  | driving (task : Nat) (drive : Drive)
  | ended (result : Except (CallError ε) Core.Collection)
  /-- The future was dropped before it ended. -/
  | dropped

namespace Call

variable {σ ε : Type}

/-- Logs that something could not be done with a task. -/
def noteFailure (task : Nat) (verb : String) : Except Fault Unit → HostM σ Unit
  | .ok () => return ()
  | .error fault => HostM.log .error s!"Failed to {verb} task {task}: {fault.message}"

/-- Gives up a task; failures to do so are only logged. -/
def giveUp (core : Core.EntryPoints σ) (task : Nat) (cancelFirst : Bool) : HostM σ Unit := do
  if cancelFirst then noteFailure task "cancel" (← cancelTask core task)
  noteFailure task "free" (← freeTask core task)

/-- Ends the call once its task is no longer driven. -/
def settle (core : Core.EntryPoints σ) (op : Operation σ ε) (task : Nat) : Drive → HostM σ (Call ε)
  | .finished _ => do
    let result ← collect core op.decode op.flavour task
    giveUp core task false
    return .ended result
  | .failed fault => do
    giveUp core task true
    return .ended (.error (.fault fault))
  | d => return .driving task d

/-- What one poll of the host future `call` does, in at most `fuel` polls of the task. -/
def poll (core : Core.EntryPoints σ) (op : Operation σ ε) (call fuel : Nat) :
    Call ε → HostM σ (Call ε)
  | .unstarted => do
    match ← HostM.callFallible op.decode op.start with
    | .error error => return .ended (.error error)
    | .ok task => do settle core op task (← Drive.run core call task fuel (.polling {}))
  | .driving task d => do settle core op task (← d.run core call task fuel)
  | c => return c

/-- Drops the host future. -/
def drop (core : Core.EntryPoints σ) : Call ε → HostM σ (Call ε)
  | .driving task d => do
    d.abandon
    giveUp core task true
    return .dropped
  | .unstarted => return .dropped
  | c => return c

end Call

/-- The value behind a buffer that a call returned, which is given back. -/
def liftCollection {σ : Type} (schema : Wire.Schema) (t : Wire.Ty) :
    Core.Collection → HostM σ (Except Fault Wire.Value)
  | .buffer b => (CoreBuffer.mk b).lift schema t
  | _ => CoreBuffer.empty.lift schema t

/-- What a call ends with whose value is read as one of type `t`. -/
def liftAnswer {σ ε : Type} (schema : Wire.Schema) (t : Wire.Ty) :
    Except (CallError ε) Core.Collection → HostM σ (Except (CallError ε) Wire.Value)
  | .ok collection => do return (← liftCollection schema t collection).mapError .fault
  | .error error => return .error error

end CoreBridge.Host
