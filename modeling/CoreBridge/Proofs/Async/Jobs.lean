import CoreBridge.Proofs.Async.Solo
import CoreBridge.Proofs.Call.Transparency

/-!
# What a call is to do

A `Job` is what one asynchronous call is to do: its start spawns a future or fails, and
says how the outcome is collected. The start either spawns the future and does nothing
else (`Job.start_spawns`), or leaves the tasks as they are (`Job.start_refused`). A task
that has ended is collected as the outcome says, and no task is left (`settle_finished`).
-/
namespace CoreBridge

namespace Core

open CoreBridge.Task

/-- The body that spawns a future. -/
def Body.spawning (outcome : Outcome (Future TaskResult)) : Body Nat := fun s =>
  match outcome with
  | .returned future =>
    let step := s.tasks.spawn future
    (.returned step.value, step.trace, { s with tasks := step.store })
  | .failed error => (.failed error, [], s)
  | .panicked panic => (.panicked panic, [], s)

end Core

namespace Task.Store

/-- What collecting a task comes to that ended so, in this shape. -/
def Collected.ofOutcome (flavour : Flavour) (handle : Nat) : Option TaskResult → Collected
  | none => .cancelled
  | some (.ok v) =>
    if v.fits flavour then .value v
    else .panicked s!"task {handle} completed as {flavour.name} but produced {v.describe}"
  | some (.error (.domain bytes)) => .domain bytes
  | some (.error (.panic message)) => .panicked message

variable {s : Store} {handle : Nat} {task : LiveTask} {future : Future TaskResult}
  {own : Array Nat} {outcome : Option TaskResult}

theorem complete_ends (htask : s.tasks.get? handle = some task)
    (h : task.Ends future own outcome) (flavour : Flavour) :
    (s.complete flavour handle).1 = .ofOutcome flavour handle outcome := by
  have hstate := h.state
  cases outcome with
  | none => exact complete_cancelled htask hstate
  | some result =>
    have hyields : task.Yields result := hstate
    obtain (bytes | message) | value := result
    · exact complete_yields htask hyields fun _ heq => by cases heq
    · exact complete_yields htask hyields fun _ heq => by cases heq
    · simp only [complete, takeOutput, htask, hyields.cancelled, hyields.output,
        Bool.false_eq_true, if_false, Collected.ofOutcome]
      split_ifs <;> rfl

end Task.Store

namespace Host

open CoreBridge.Core CoreBridge.Task

variable {ε : Type}

/-! ## Starts -/

theorem classify_congr (decode : Bytes → Except Wire.DecodeError ε) (code : Int) {b b' : Buffer}
    (h : b.bytes = b'.bytes) : classify decode ⟨code, b⟩ = classify decode ⟨code, b'⟩ := by
  simp only [classify, h]

theorem WakeRegistry.deliverAll_of_onlyLogs {trace : Trace} (h : trace.OnlyLogs)
    (r : WakeRegistry) : r.deliverAll trace = r := by
  induction trace with
  | nil => rfl
  | cons o trace ih =>
    obtain ⟨⟨level, text, rfl⟩, htrace⟩ := List.forall_mem_cons.1 h
    exact ih htrace

/-- What an asynchronous call is to do: what its start comes to, and how the task is
collected. -/
structure Job (ε : Type) where
  start : Outcome (Future TaskResult)
  flavour : Flavour
  decode : Bytes → Except Wire.DecodeError ε

namespace Job

variable (job : Job ε)

def operation : Operation State ε where
  start := (Body.spawning job.start).entry 0
  flavour := job.flavour
  decode := job.decode

/-- What the call ends with whose task ended so. -/
def answer (task : Nat) (outcome : Option TaskResult) : Except (CallError ε) TaskValue :=
  learnt job.decode (.ofOutcome job.flavour task outcome)

/-- What a caller learns of a start that does not spawn a future. -/
def refusal : Except (CallError ε) Unit :=
  let (code, payload) := job.start.report
  classify job.decode ⟨code.raw, .allocated ⟨0, payload, payload.length⟩⟩

variable {job} {s : Session State}

theorem start_spawns {future : Future TaskResult} (hstart : job.start = .returned future) :
    ∃ s', (HostM.callFallible job.operation.decode job.operation.start).run s =
        (.ok s.core.tasks.nextHandle, s') ∧ s.Performs s' (.spawn future) := by
  have hreply : (job.operation.start s.core).1 = { value := s.core.tasks.nextHandle } := by
    simp only [operation, hstart]
    rfl
  obtain ⟨s', hrun, hcore, hwakes⟩ :=
    HostM.callFallible_run job.operation.decode job.operation.start s
  rw [hreply] at hrun hwakes
  refine ⟨s', hrun, Session.performs_of_deliverAll ?_ hwakes⟩
  rw [hcore]
  simp only [operation, hstart]
  rfl

/-- A start that does not spawn a future is reported as its failure. -/
theorem spawning_refused (hstart : ∀ future, job.start ≠ .returned future) (core : State) :
    ∃ outcome : Outcome Nat, Body.spawning job.start core = (outcome, [], core) ∧
      outcome.report = job.start.report := by
  unfold Body.spawning
  cases hjob : job.start with
  | returned future => exact absurd hjob (hstart future)
  | failed error => exact ⟨.failed error, rfl, rfl⟩
  | panicked panic => exact ⟨.panicked panic, rfl, rfl⟩

theorem refusal_error (hstart : ∀ future, job.start ≠ .returned future) :
    ∃ error, job.refusal = .error error := by
  have hcode : ResultCode.ofRaw? ResultCode.error.raw = some .error := rfl
  have hfailed (b : Buffer) : ∃ error,
      classify job.decode ⟨ResultCode.error.raw, b⟩ = .error error := by
    simp only [classify, hcode]
    cases job.decode b.bytes <;> exact ⟨_, rfl⟩
  unfold refusal
  cases hjob : job.start with
  | returned future => exact absurd hjob (hstart future)
  | panicked panic => exact ⟨_, rfl⟩
  | failed error =>
    simp only [Outcome.report]
    cases Wire.encode error with
    | ok bytes => exact hfailed _
    | error reason => exact ⟨_, rfl⟩

/-- The start of a call that fails leaves the tasks and the wake registry as they are. -/
theorem start_refused (hstart : ∀ future, job.start ≠ .returned future) :
    ∃ error s', (HostM.callFallible job.operation.decode job.operation.start).run s =
        (.error error, s') ∧ job.refusal = .error error ∧
      s'.core.tasks = s.core.tasks ∧ s'.wakes = s.wakes := by
  obtain ⟨error, herror⟩ := refusal_error hstart
  obtain ⟨outcome, hbody, hreport⟩ := spawning_refused hstart s.core
  obtain ⟨logs, hlogs, hentry⟩ := run_eq s.core.heap 0 outcome
  obtain ⟨s', hrun, hcore, hwakes⟩ :=
    HostM.callFallible_run job.operation.decode job.operation.start s
  have hstep : job.operation.start s.core =
      ({ value := outcome.valueOr 0
         status := ⟨job.start.report.1.raw, (payloadBuffer s.core.heap job.start.report.2).1⟩
         trace := logs },
        { s.core with heap := (payloadBuffer s.core.heap job.start.report.2).2 }) := by
    simp only [operation, Body.entry, hbody, State.onHeap, hentry, hreport, List.nil_append]
  have hclass : classify job.decode (job.operation.start s.core).1.status = .error error := by
    rw [hstep, ← herror]
    exact classify_congr job.decode _ (payloadBuffer_bytes _ _)
  rw [hstep] at hcore hwakes
  refine ⟨error, s', ?_, herror, by rw [hcore], ?_⟩
  · have hdecode : job.operation.decode = job.decode := rfl
    rw [hrun, hdecode, hclass]
    rfl
  · rw [hwakes]
    exact WakeRegistry.deliverAll_of_onlyLogs hlogs s.wakes

end Job

/-! ## Ending a task -/

section Ending

variable {future : Future TaskResult} {task : Nat} {own : Array Nat} {s s' : Session State}

theorem Session.Performs.gone (h : s.Performs s' (.free task)) :
    s'.core.tasks.tasks.get? task = none := by
  rw [h.tasks]
  simp only [Store.perform, Task.Step.map, Store.get?_free, if_true]

/-- Giving up a task that has been collected leaves no task. -/
theorem giveUp_moves (hs : s.Orderly) (hwithin : Footprint.Within ⟨task, own, none⟩ s)
    (howns : s.core.tasks.Owns task future own) (hprivate : future.IsPrivate) :
    ∃ s', (Call.giveUp machine task false).run s = ((), s') ∧
      s'.core.tasks.tasks.get? task = none ∧ s.Moves ⟨task, own, none⟩ s' ⟨task, own, none⟩ := by
  obtain ⟨s', hgive, hperforms⟩ := giveUp_machine task s
  exact ⟨s', hgive, hperforms.gone,
    hperforms.moves_own hs hwithin rfl (fun _ _ heq => by cases heq) howns hprivate⟩

/-- Giving up a task that has not ended leaves no task either. -/
theorem giveUp_cancelled_moves (hs : s.Orderly) (hwithin : Footprint.Within ⟨task, own, none⟩ s)
    (howns : s.core.tasks.Owns task future own) (hprivate : future.IsPrivate) :
    ∃ s', (Call.giveUp machine task true).run s = ((), s') ∧
      s'.core.tasks.tasks.get? task = none ∧ s.Moves ⟨task, own, none⟩ s' ⟨task, own, none⟩ := by
  obtain ⟨s₁, s', hgive, hfirst, hsecond⟩ := giveUp_cancelling task s
  have hmoves := hfirst.moves_own hs hwithin rfl (fun _ _ heq => by cases heq) howns hprivate
  have howns₁ : s₁.core.tasks.Owns task future own :=
    hfirst.tasks ▸ howns.perform rfl fun _ heq => by cases heq
  exact ⟨s', hgive, hsecond.gone, hmoves.trans (hsecond.moves_own hmoves.orderly hmoves.within rfl
    (fun _ _ heq => by cases heq) howns₁ hprivate)⟩

/-- A call whose task has ended comes to the answer, and leaves no task behind. -/
theorem settle_finished (job : Job ε) {report : PollReport} {outcome : Option TaskResult}
    (h : Drives future task own s (.finished report) (.finished report outcome))
    (hprivate : future.IsPrivate) :
    ∃ result s', (Call.settle machine job.operation task (.finished report)).run s =
        (.ended result, s') ∧ result.map Collection.content = job.answer task outcome ∧
      s'.core.tasks.tasks.get? task = none ∧
      s.Moves ⟨task, own, none⟩ s' ⟨task, own, none⟩ := by
  have howns := h.told.owns
  cases h.told with
  | finished hlive hends =>
    obtain ⟨s₁, hcollect, hperforms⟩ := collect_performs job.decode job.flavour task s
    have hmoves := hperforms.moves_own h.orderly h.within rfl (fun _ _ heq => by cases heq) howns
      hprivate
    have howns₁ : s₁.core.tasks.Owns task future own :=
      hperforms.tasks ▸ howns.perform rfl fun _ heq => by cases heq
    obtain ⟨s', hgive, hgone, hmoves'⟩ := giveUp_moves hmoves.orderly hmoves.within howns₁ hprivate
    let reply := (s.core.complete true job.flavour task).1
    refine ⟨(classify job.decode reply.status).map fun () => reply.value, s', ?_, ?_, hgone,
      hmoves.trans hmoves'⟩
    · simp only [Call.settle, Job.operation, StateT.run_bind, hcollect]
      dsimp only [Bind.bind]
      rw [hgive]
      rfl
    · rw [learnt_complete, Store.complete_ends hlive hends]
      rfl

end Ending

end Host
end CoreBridge
