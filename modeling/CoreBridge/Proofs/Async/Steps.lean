import CoreBridge.Proofs.Async.Driving
import CoreBridge.Proofs.Call.Reporting
import CoreBridge.Proofs.Task.Others

/-!
# The steps of a call

What a call does in each of its steps comes down to one operation on the tasks
of the core, and what that shows of continuations goes to the channels of the
polls (`Session.Performs`). What a caller learns in the end is what was collected
(`learnt_complete`).
-/
namespace CoreBridge

namespace Task

/-- The bytes of a value that is collected as a buffer. -/
def TaskValue.bytes : TaskValue → Bytes
  | .buffer bytes => bytes
  | .void | .word _ => []

namespace Store

/-- What collecting a task comes to that has come to a result. -/
def Collected.ofResult : TaskResult → Collected
  | .ok v => .value v
  | .error (.domain bytes) => .domain bytes
  | .error (.panic message) => .panicked message

variable {s : Store} {handle : Nat} {task : LiveTask} {result : TaskResult} {flavour : Flavour}

theorem complete_cancelled (htask : s.tasks.get? handle = some task)
    (hcancelled : task.cancelled = true) : (s.complete flavour handle).1 = .cancelled := by
  simp only [complete, takeOutput, htask, hcancelled, if_true]

theorem complete_yields (htask : s.tasks.get? handle = some task) (hyields : task.Yields result)
    (hfits : ∀ value, result = .ok value → value.fits flavour) :
    (s.complete flavour handle).1 = .ofResult result := by
  have htaken : s.takeOutput handle =
      (.ofResult result, s.setTask handle { task with output := none }) := by
    simp only [takeOutput, htask, hyields.cancelled, hyields.output]
    obtain (message | bytes) | value := result <;> rfl
  simp only [complete, htaken]
  obtain (message | bytes) | value := result
  · rfl
  · rfl
  · simp only [Collected.ofResult, hfits value rfl, if_true]

end Store
end Task

/-- What is handed over, whatever allocation it is in. -/
def Core.Collection.content : Core.Collection → Task.TaskValue
  | .void => .void
  | .word n => .word n
  | .buffer b => .buffer b.bytes

namespace Host

open CoreBridge.Core CoreBridge.Task

/-! ## What is read of what was collected -/

section Learnt

variable {ε : Type}

/-- What a caller learns of what was collected of its task. -/
def learnt (decode : Bytes → Except Wire.DecodeError ε) :
    Store.Collected → Except (CallError ε) TaskValue
  | .value value => .ok value
  | .domain bytes =>
    match decode bytes with
    | .ok error => .error (.domain error)
    | .error reason => .error (.fault (.decode reason))
  | .panicked message => .error (.fault (textFault message))
  | .cancelled => .error .cancelled

/-- What the status and the value of a completion say is what was collected. -/
theorem learnt_complete (decode : Bytes → Except Wire.DecodeError ε) (s : State)
    (flavour : Flavour) (task : Nat) :
    let reply := (s.complete true flavour task).1
    ((classify decode reply.status).map fun () => reply.value).map Collection.content =
      learnt decode (s.tasks.complete flavour task).1 := by
  rcases hcomplete : s.tasks.complete flavour task with ⟨collected, tasks⟩
  simp only [State.complete, hcomplete]
  cases collected with
  | value v => cases v <;> rfl
  | domain bytes =>
    have hcode : ResultCode.ofRaw? ResultCode.error.raw = some .error := rfl
    simp only [State.onHeap, writeStatus, if_true, learnt, classify, hcode, payloadBuffer_bytes]
    cases decode bytes <;> rfl
  | panicked message =>
    simp only [State.onHeap, writePanic, writeStatus, if_true, learnt, classify_unexpected,
      payloadBuffer_bytes, panicFault_ofText]
    rfl
  | cancelled => rfl

end Learnt

/-- What a caller reads of what was collected of its task. -/
def readCollected (schema : Wire.Schema) (t te : Wire.Ty) :
    Store.Collected → Except (CallError Wire.Value) Wire.Value
  | .value value => (schema.decode t value.bytes).mapError fun reason => .fault (.decode reason)
  | .domain bytes =>
    match schema.decode te bytes with
    | .ok error => .error (.domain error)
    | .error reason => .error (.fault (.decode reason))
  | .panicked message => .error (.fault (textFault message))
  | .cancelled => .error .cancelled

variable {schema : Wire.Schema} {t te : Wire.Ty}

/-- What a caller reads who takes the buffer of a value for its wire form. -/
def readValue (schema : Wire.Schema) (t : Wire.Ty) (value : TaskValue) :
    Except (CallError Wire.Value) Wire.Value :=
  (schema.decode t value.bytes).mapError fun reason => .fault (.decode reason)

theorem readCollected_eq (collected : Store.Collected) :
    readCollected schema t te collected =
      (learnt (schema.decode te) collected).bind (readValue schema t) := by
  cases collected with
  | domain bytes =>
    simp only [readCollected, learnt]
    cases schema.decode te bytes <;> rfl
  | _ => rfl

theorem liftAnswer_eq (answer : Except (CallError Wire.Value) Collection) (s : Session State) :
    ((liftAnswer schema t answer).run s).1 =
      (answer.map Collection.content).bind (readValue schema t) := by
  cases answer with
  | error error => rfl
  | ok collection =>
    have hlift : ((liftCollection schema t collection).run s).1 =
        (schema.decode t collection.content.bytes).mapError .decode := by
      cases collection <;> rfl
    have hrun :
        ((liftAnswer schema t (.ok collection : Except (CallError Wire.Value) Collection)).run s).1 =
          (((liftCollection schema t collection).run s).1).mapError .fault := rfl
    rw [hrun, hlift]
    simp only [Except.map, Except.bind, readValue]
    cases schema.decode t collection.content.bytes <;> rfl

section Complete

variable (s : State) (flavour : Flavour) (task : Nat)

theorem complete_tasks : (s.complete true flavour task).2.tasks =
    (s.tasks.complete flavour task).2 := by
  rcases hcomplete : s.tasks.complete flavour task with ⟨collected, tasks⟩
  simp only [State.complete, hcomplete]
  cases collected with
  | value v => cases v <;> rfl
  | _ => rfl

/-- What was collected of a task is what a caller reads who classifies the status
and takes the buffer for the wire form of a value. -/
theorem complete_read (host : Session State) :
    let reply := (s.complete true .buffer task).1
    ((liftAnswer schema t
        ((classify (schema.decode te) reply.status).map fun () => reply.value)).run host).1 =
      readCollected schema t te (s.tasks.complete .buffer task).1 := by
  intro reply
  rw [liftAnswer_eq, learnt_complete, readCollected_eq]

end Complete

/-! ## What becomes of the tasks -/

namespace Event

theorem delivered?_ofTrace (id : Nat) (trace : Trace) :
    delivered? id (ofTrace trace) = (trace.firings id).head? := by
  induction trace with
  | nil => rfl
  | cons o trace ih =>
    cases o with
    | fired i result =>
      have hfired : ofTrace (.fired i result :: trace) = .fired i result :: ofTrace trace := rfl
      rw [hfired, delivered?_fired, ih]
      by_cases hi : i = id <;> simp [Trace.firings, Observation.firing?, hi]
    | _ => exact ih

end Event

namespace WakeRegistry

theorem nextId_deliver (r : WakeRegistry) (id : Nat) (result : Int) :
    (r.deliver id result).1.nextId = r.nextId := by
  unfold WakeRegistry.deliver
  split
  · rfl
  · split <;> rfl

theorem nextId_deliverAll (r : WakeRegistry) (trace : Trace) :
    (r.deliverAll trace).nextId = r.nextId := by
  induction trace generalizing r with
  | nil => rfl
  | cons o trace ih =>
    cases o with
    | fired id result => exact (ih _).trans (nextId_deliver r id result)
    | _ => exact ih r

theorem nextId_suspend (r : WakeRegistry) (id : Nat) : (r.suspend id).nextId = r.nextId := by
  unfold WakeRegistry.suspend
  split <;> rfl

end WakeRegistry

/-- The tasks of a session come of those of another one by an operation. -/
structure Session.Follows (s s' : Session State) (op : Task.Operation) : Prop where
  tasks : s'.core.tasks = (s.core.tasks.perform op).store
  ids : s.wakes.nextId ≤ s'.wakes.nextId

/-- The tasks of a session come of those of another one by an operation, and what it shows of
continuations goes to the channels of the polls made so far. -/
structure Session.Performs (s s' : Session State) (op : Task.Operation) : Prop
    extends s.Follows s' op where
  channels : ∀ id < s.wakes.nextId, ∀ d, s.wakes.Holds id d →
    s'.wakes.Holds id (d.or ((s.core.tasks.perform op).trace.firings id).head?)

/-- The tasks of a session are as runs leave them, and every id that a waker was
made with has been issued. -/
structure Session.Orderly (s : Session State) : Prop where
  sound : s.core.tasks.Sound
  below : s.core.tasks.Below s.wakes.nextId

variable {s s' : Session State} {op : Task.Operation}

theorem Session.Orderly.follows (hs : s.Orderly) (h : s.Follows s' op)
    (hop : ∀ handle id, op = .poll handle id → id < s'.wakes.nextId) : s'.Orderly where
  sound := h.tasks ▸ hs.sound.perform op
  below := h.tasks ▸ (hs.below.mono h.ids).perform hop

theorem Session.orderly_initial (core : State) (hcore : core.tasks = {}) (wakes : WakeRegistry) :
    Session.Orderly { core, wakes } where
  sound := hcore ▸ Store.sound_empty
  below := by simp [hcore, Store.Below, Store.bare]

theorem Session.performs_of_deliverAll (htasks : s'.core.tasks = (s.core.tasks.perform op).store)
    (hwakes : s'.wakes = s.wakes.deliverAll (s.core.tasks.perform op).trace) :
    s.Performs s' op where
  tasks := htasks
  ids := by rw [hwakes, WakeRegistry.nextId_deliverAll]
  channels id _ d hd := by
    rw [hwakes, ← Event.delivered?_ofTrace]
    exact hd.deliverAll _

/-- A call of an entry point that works on the tasks succeeds. -/
theorem HostM.call_onTasks {α : Type} (f : Store → Task.Step α) (shown : α → Trace)
    (s : Session State) :
    ∃ s', (HostM.call (fun core : State => core.onTasks f) shown).run s =
        (.ok (f s.core.tasks).value, s') ∧
      s'.core.tasks = (f s.core.tasks).store ∧
      s'.wakes = s.wakes.deliverAll (f s.core.tasks).trace := by
  obtain ⟨s', hrun, hcore, hwakes⟩ := HostM.call_run (fun core : State => core.onTasks f) shown s
  exact ⟨s', hrun, congrArg State.tasks hcore, hwakes⟩

/-- A poll of a task: what it comes to, and what the channel of the poll holds if the
call has to wait for it. -/
theorem Drive.poll_machine (number task : Nat) (report : PollReport) (s : Session State) :
    let id := s.wakes.nextId
    let step := s.core.tasks.poll task id
    let report' := { report with polls := report.polls + 1 }
    ∃ s', (Drive.poll machine number task report).run s =
        (if step.value = pollReady then .finished report' else .waiting id report', s') ∧
      s.Performs s' (.poll task id) ∧ id < s'.wakes.nextId ∧
      (step.value ≠ pollReady → s'.wakes.Holds id (step.trace.firings id).head?) := by
  intro id step report'
  obtain ⟨s₁, hcall, htasks, hwakes⟩ := HostM.call_onTasks (fun tasks => tasks.poll task id)
    (fun answer => [.polled task id answer]) { s with wakes := (s.wakes.register number).2 }
  have hids : s₁.wakes.nextId = id + 1 := by
    rw [hwakes, WakeRegistry.nextId_deliverAll]
    rfl
  have hholds : s₁.wakes.Holds id (step.trace.firings id).head? := by
    rw [hwakes, ← Event.delivered?_ofTrace]
    exact (WakeRegistry.holds_register s.wakes number).deliverAll _
  have hothers (i : Nat) (hi : i < id) (d : Option Int) (hd : s.wakes.Holds i d) :
      s₁.wakes.Holds i (d.or (step.trace.firings i).head?) := by
    have hregister : (s.wakes.register number).2.Holds i d :=
      hd.congr ((Table.get?_set ..).trans (if_neg (Nat.ne_of_gt hi)))
    rw [hwakes, ← Event.delivered?_ofTrace]
    exact hregister.deliverAll _
  have hanswer := Drive.poll_eq machine number task report rfl hcall
  by_cases hready : step.value = pollReady
  · refine ⟨Drive.closed id false s₁, ?_, ⟨⟨htasks, ?_⟩, ?_⟩, hids.ge,
      fun hne => absurd hready hne⟩
    · rw [if_pos hready, hanswer]
      exact if_pos hready
    · exact (Nat.le_succ id).trans hids.ge
    · intro i hi d hd
      exact (hothers i hi d hd).congr ((Table.get?_erase ..).trans (if_neg (Nat.ne_of_gt hi)))
  · refine ⟨s₁, ?_, ⟨⟨htasks, ?_⟩, hothers⟩, hids.ge, fun _ => hholds⟩
    · rw [if_neg hready, hanswer]
      exact if_neg hready
    · exact (Nat.le_succ id).trans hids.ge

theorem Drive.receive_nextId (id : Nat) (report : PollReport) (s : Session State) :
    ((Drive.receive id report).run s).2.wakes.nextId = s.wakes.nextId := by
  unfold Drive.receive
  simp only [StateT.run_bind, HostM.onWakes_run]
  dsimp only [Bind.bind]
  cases s.wakes.received? id with
  | none => exact WakeRegistry.nextId_suspend s.wakes id
  | some result => rfl

/-- Collecting a task answers what a caller reads as what was collected. -/
theorem collect_machine (schema : Wire.Schema) (t te : Wire.Ty) (task : Nat) (s : Session State) :
    ∃ answer s', (collect machine (schema.decode te) .buffer task).run s = (answer, s') ∧
      s.Follows s' (.complete .buffer task) ∧
      ∀ host : Session State, ((liftAnswer schema t answer).run host).1 =
        readCollected schema t te (s.core.tasks.complete .buffer task).1 := by
  obtain ⟨s', hcall, hcore, hwakes⟩ := HostM.callFallible_run (schema.decode te)
    (machine.complete .buffer task) { s with trace := s.trace ++ [.complete .buffer task] }
  refine ⟨_, s', hcall, ⟨?_, ?_⟩, fun host => complete_read s.core task host⟩
  · rw [hcore]
    exact complete_tasks s.core .buffer task
  · rw [hwakes, WakeRegistry.nextId_deliverAll]

theorem cancelTask_performs (task : Nat) (s : Session State) :
    ∃ s', (cancelTask machine task).run s = (.ok (), s') ∧ s.Performs s' (.cancel task) := by
  obtain ⟨s', hcall, htasks, hwakes⟩ := HostM.call_onTasks (fun tasks => tasks.cancel task)
    (fun _ => []) { s with trace := s.trace ++ [.cancel task] }
  exact ⟨s', hcall, Session.performs_of_deliverAll htasks hwakes⟩

theorem freeTask_performs (task : Nat) (s : Session State) :
    ∃ s', (freeTask machine task).run s = (.ok (), s') ∧ s.Performs s' (.free task) := by
  obtain ⟨s', hcall, htasks, hwakes⟩ := HostM.call_onTasks (fun tasks => tasks.free task)
    (fun _ => []) { s with trace := s.trace ++ [.freeTask task] }
  exact ⟨s', hcall, Session.performs_of_deliverAll htasks hwakes⟩

/-- Giving up a task that has been collected frees it. -/
theorem giveUp_machine (task : Nat) (s : Session State) :
    ∃ s', (Call.giveUp machine task false).run s = ((), s') ∧ s.Performs s' (.free task) := by
  obtain ⟨s', hfree, hperforms⟩ := freeTask_performs task s
  refine ⟨s', ?_, hperforms⟩
  have hgive : (Call.giveUp machine task false).run s =
      (freeTask machine task >>= Call.noteFailure task "free").run s := rfl
  rw [hgive, StateT.run_bind, hfree]
  rfl

/-- Giving up a task that has not ended cancels it before. -/
theorem giveUp_cancelling (task : Nat) (s : Session State) :
    ∃ s₁ s', (Call.giveUp machine task true).run s = ((), s') ∧ s.Performs s₁ (.cancel task) ∧
      s₁.Performs s' (.free task) := by
  obtain ⟨s₁, hcancel, hfirst⟩ := cancelTask_performs task s
  obtain ⟨s', hgive, hsecond⟩ := giveUp_machine task s₁
  refine ⟨s₁, s', ?_, hfirst, hsecond⟩
  have hsplit : (Call.giveUp machine task true).run s =
      (cancelTask machine task >>= fun answer => do
        Call.noteFailure task "cancel" answer
        Call.giveUp machine task false).run s := rfl
  rw [hsplit, StateT.run_bind, hcancel]
  exact hgive

end Host
end CoreBridge
