import CoreBridge.Proofs.Async.Jobs
import CoreBridge.Proofs.Task.Fate

/-!
# Collecting the outcome of a task

What a completion reports of a task depends on the fate of the task alone
(`Fate.collects`), and a value is handed over only while the task holds one. So it is
handed over once at most, a cancelled task says so from then on until it is freed, and
a handle that is not live is unknown (`outcome_law`).
-/
namespace CoreBridge

namespace Task.Store.Collected

/-- The code by which a completion reports what it collected. -/
def code : Collected → ResultCode
  | value _ => .success
  | domain _ => .error
  | panicked _ => .unexpected
  | cancelled => .cancelled

/-- The payload of that report. -/
def payload : Collected → Bytes
  | value _ | cancelled => []
  | domain bytes => bytes
  | panicked message => Bytes.ofText message

/-- What is collected of a task that has no outcome to hand over. -/
def notReady (handle : Nat) : Collected :=
  .panicked s!"task {handle} completed before it was ready"

/-- What is collected under a handle that is not live. -/
def unknown (handle : Nat) : Collected := .panicked s!"unknown task handle {handle}"

end Task.Store.Collected

namespace Core

open CoreBridge.Task

/-- Whether a reply reports what was collected, in code, payload and value. -/
structure Reports (flavour : Flavour) (collected : Store.Collected)
    (reply : Reply Collection) : Prop where
  code : reply.status.code = collected.code.raw
  payload : reply.status.payload.bytes = collected.payload
  value : match collected with
    | .value v => reply.value.content = v
    | _ => reply.value = State.nothing flavour

/-- The completions of a core report what is collected of its tasks. -/
theorem complete_reports (core : State) (flavour : Flavour) (task : Nat) :
    Reports flavour (core.tasks.complete flavour task).1
      (machine.complete flavour task core).1 := by
  simp only [machine, State.complete]
  rcases core.tasks.complete flavour task with ⟨collected, tasks⟩
  cases collected with
  | value v => cases v <;> exact ⟨rfl, rfl, rfl⟩
  | domain bytes => exact ⟨rfl, payloadBuffer_bytes _ _, rfl⟩
  | panicked message => exact ⟨rfl, payloadBuffer_bytes _ _, rfl⟩
  | cancelled => exact ⟨rfl, rfl, rfl⟩

variable {flavour : Flavour} {collected : Store.Collected} {reply : Reply Collection}

/-- A report of success hands over what was collected. -/
theorem Reports.value_of_success (h : Reports flavour collected reply)
    (hsuccess : reply.status.code = ResultCode.success.raw) :
    collected = .value reply.value.content := by
  have hcode := h.code.symm.trans hsuccess
  have hvalue := h.value
  cases collected with
  | value v => exact congrArg _ hvalue.symm
  | _ => cases hcode

end Core

namespace Task

open CoreBridge.Core

namespace Store

variable {s : Store} {handle data n : Nat} {task : LiveTask} {future : Future TaskResult}

/-- Whether a core with these tasks reports this of one of them, and takes its outcome. -/
def Answers (s : Store) (handle : Nat) (collected : Flavour → Collected) : Prop :=
  ∀ core : State, core.tasks = s → ∀ flavour,
    Reports flavour (collected flavour) (machine.complete flavour handle core).1 ∧
      (machine.complete flavour handle core).2.tasks = (s.complete flavour handle).2

theorem answers_of_complete {collected : Flavour → Collected}
    (h : ∀ flavour, (s.complete flavour handle).1 = collected flavour) :
    s.Answers handle collected := by
  rintro core rfl flavour
  rw [← h]
  exact ⟨complete_reports core flavour handle, Host.complete_tasks core flavour handle⟩

/-- A completion of a task that runs leaves everything as it is. -/
theorem complete_runs (htask : s.tasks.get? handle = some task) (hruns : task.Runs future n)
    (flavour : Flavour) : s.complete flavour handle = (.notReady handle, s) := by
  simp only [complete, takeOutput, htask, hruns.cancelled, hruns.output, Bool.false_eq_true,
    if_false]
  rfl

/-- Whether nothing stands under a handle: a completion reports it as unknown, a poll
answers ready, and nothing that is done with it changes anything. -/
structure Unknown (s : Store) (handle : Nat) : Prop where
  complete : s.Answers handle fun _ => .unknown handle
  completed : ∀ flavour, (s.complete flavour handle).2 = s
  poll : ∀ data, s.poll handle data =
    ⟨pollReady, s, [.log .error s!"future_poll on unknown task handle {handle}"]⟩
  cancel : s.cancel handle =
    ⟨(), s, [.log .warn s!"future_cancel on unknown task handle {handle}"]⟩
  free : s.free handle = ⟨(), s, [.log .warn s!"future_free on unknown task handle {handle}"]⟩

theorem unknown_of_none (hnone : s.tasks.get? handle = none) : s.Unknown handle := by
  have hcomplete (flavour : Flavour) : s.complete flavour handle = (.unknown handle, s) := by
    simp only [Store.complete, takeOutput, hnone]
    rfl
  constructor
  · exact answers_of_complete fun flavour => congrArg Prod.fst (hcomplete flavour)
  · exact fun flavour => congrArg Prod.snd (hcomplete flavour)
  · exact fun data => poll_unknown hnone
  · simp only [Store.cancel, hnone]
  · simp only [Store.free, hnone]

/-- Whether a task stands cancelled: a completion reports that, a poll answers ready and
invokes nothing, and cancelling the task again leaves everything as it is. -/
structure StandsCancelled (s : Store) (handle : Nat) : Prop where
  complete : s.Answers handle fun _ => .cancelled
  poll : ∀ data, (s.poll handle data).value = pollReady ∧ (s.poll handle data).trace = []
  cancel : s.cancel handle = ⟨(), s, [.log .debug s!"Cancelled task {handle}"]⟩

theorem standsCancelled_of_forgotten (htask : s.tasks.get? handle = some task.forgotten) :
    s.StandsCancelled handle := by
  have hrun : task.forgotten.runnable? = none := rfl
  constructor
  · exact answers_of_complete fun flavour => complete_cancelled htask rfl
  · intro data
    rw [poll_live htask, hrun]
    exact ⟨rfl, rfl⟩
  · -- There is nothing left to drop or release, and what is put back is there already.
    have hsame : s.setTask handle task.forgotten = s := by
      rw [setTask, Table.set_of_get? htask]
    rw [cancel_live htask]
    exact congrArg (fun t => (⟨(), t, [.log .debug s!"Cancelled task {handle}"]⟩ : Step Unit)) hsame

end Store

namespace Fate

open Store

variable {s : Store} {handle : Nat} {fate : Fate}

/-- What a completion collects of a task with this fate. -/
def collects (flavour : Flavour) (handle : Nat) : Fate → Collected
  | running _ _ | collected => .notReady handle
  | ended result => .ofOutcome flavour handle (some result)
  | cancelled => .cancelled
  | freed => .unknown handle

theorem Keeps.complete (h : fate.Keeps (s.tasks.get? handle)) (flavour : Flavour) :
    (s.complete flavour handle).1 = fate.collects flavour handle := by
  cases fate with
  | running future n =>
    obtain ⟨task, htask, hruns⟩ := h
    exact congrArg Prod.fst (complete_runs htask hruns flavour)
  | ended result =>
    obtain ⟨task, htask, hrests⟩ := h
    have hends : task.Ends .stalled task.wakers (some result) := by
      refine ⟨⟨rfl, fun f hf => ?_⟩, hrests.output, hrests.cancelled⟩
      rw [hrests.future] at hf
      cases hf
    exact complete_ends htask hends flavour
  | collected =>
    obtain ⟨task, htask, hrests⟩ := h
    simp only [Store.complete, takeOutput, htask, hrests.cancelled, hrests.output,
      Bool.false_eq_true, if_false]
    rfl
  | cancelled =>
    obtain ⟨task, htask⟩ := h
    exact complete_cancelled htask rfl
  | freed =>
    have hnone : s.tasks.get? handle = none := h
    simp only [Store.complete, takeOutput, hnone]
    rfl

theorem Keeps.answers (h : fate.Keeps (s.tasks.get? handle)) :
    s.Answers handle (fate.collects · handle) :=
  answers_of_complete h.complete

/-- A value is collected only of a task that has ended with it. -/
theorem ended_of_collects {flavour : Flavour} {v : TaskValue}
    (h : fate.collects flavour handle = .value v) : fate = ended (.ok v) ∧ v.fits flavour := by
  cases fate with
  | ended result =>
    rcases result with (bytes | message) | value
    · cases h
    · cases h
    · simp only [collects, Collected.ofOutcome] at h
      split at h
      · rename_i hfits
        obtain rfl := Collected.value.inj h
        exact ⟨rfl, hfits⟩
      · cases h
  | _ => cases h

/-- How many values a task may still hand over. -/
def toCome : Fate → Nat
  | running _ _ | ended _ => 1
  | collected | cancelled | freed => 0

theorem toCome_le_one (fate : Fate) : fate.toCome ≤ 1 := by
  cases fate <;> simp [toCome]

theorem toCome_step_le (fate : Fate) (handle : Nat) (op : Operation) :
    (fate.step handle op).toCome ≤ fate.toCome := by
  by_cases htarget : op.target? = some handle
  · rw [step_of_target htarget]
    cases fate with
    | running future n => exact toCome_le_one _
    | _ => cases op <;> simp [undergo, toCome]
  · rw [step_of_ne htarget]

end Fate

namespace Store

variable {s : Store} {handle : Nat} {fate : Fate}

/-- What an operation hands over of the value of a task: that of a completion which
reports success. -/
def delivered (s : Store) (handle : Nat) : Operation → List TaskValue
  | .complete flavour h =>
    let reply := (machine.complete flavour h { tasks := s }).1
    if h = handle ∧ reply.status.code = ResultCode.success.raw then [reply.value.content] else []
  | _ => []

/-- What is handed over of the value of a task in a run, each time that it is. -/
def deliveries (s : Store) (handle : Nat) : List Operation → List TaskValue
  | [] => []
  | op :: ops => s.delivered handle op ++ (s.perform op).store.deliveries handle ops

/-- A task that hands over its value has one less to come. -/
theorem delivered_length (h : fate.Keeps (s.tasks.get? handle)) (op : Operation) :
    (s.delivered handle op).length + (fate.step handle op).toCome ≤ fate.toCome := by
  have hnothing (hnil : s.delivered handle op = []) :
      (s.delivered handle op).length + (fate.step handle op).toCome ≤ fate.toCome := by
    rw [hnil, List.length_nil, Nat.zero_add]
    exact fate.toCome_step_le handle op
  cases op with
  | complete flavour h' =>
    let reply := (machine.complete flavour h' { tasks := s }).1
    by_cases hsuccess : h' = handle ∧ reply.status.code = ResultCode.success.raw
    · obtain ⟨rfl, hcode⟩ := hsuccess
      have hvalue := (complete_reports { tasks := s } flavour h').value_of_success hcode
      obtain ⟨rfl, _⟩ := Fate.ended_of_collects ((h.complete flavour).symm.trans hvalue)
      have hone : s.delivered h' (.complete flavour h') = [reply.value.content] :=
        if_pos ⟨rfl, hcode⟩
      rw [hone, Fate.step_of_target rfl]
      exact le_rfl
    · exact hnothing (if_neg hsuccess)
  | _ => exact hnothing rfl

/-- Over a run, a task hands over its value as often as it may, at most. -/
theorem deliveries_length (h : fate.Keeps (s.tasks.get? handle)) (hissued : handle < s.nextHandle)
    (ops : List Operation) : (s.deliveries handle ops).length ≤ fate.toCome := by
  induction ops generalizing s fate with
  | nil => exact Nat.zero_le _
  | cons op ops ih =>
    have hfirst := delivered_length h op
    have hrest := ih (h.perform hissued op)
      (Nat.lt_of_lt_of_le hissued (s.nextHandle_le_perform op))
    rw [deliveries, List.length_append]
    omega

example : ({} : Store).deliveries 1 [.spawn (.countdown 1 (.ok (.word 5))), .poll 1 0,
    .complete .word 1, .poll 1 0, .complete .word 1, .complete .word 1] = [.word 5] := by
  decide +kernel

/-- What is said of the outcome of a task in a store, if this future has been spawned
under its handle and `later` is what has been done since. -/
structure OutcomeLaw (handle : Nat) (future : Future TaskResult) (later : List Operation)
    (s : Store) : Prop where
  /-- A value that is handed over is the one that the future ended with, in its shape. -/
  success : ∀ core : State, core.tasks = s → ∀ flavour,
    let reply := (machine.complete flavour handle core).1
    reply.status.code = ResultCode.success.raw → ∃ n v, future.EndsIn n (.ok v) ∧
      reply.value.content = v ∧ v.fits flavour ∧ .cancel handle ∉ later ∧ .free handle ∉ later
  /-- Before the future has ended, a completion leaves everything as it is. -/
  early : LeavesRunning handle future later →
    s.Answers handle (fun _ => .notReady handle) ∧ ∀ flavour, (s.complete flavour handle).2 = s
  /-- What the future ends with is reported to the first completion, whatever its shape. -/
  ended : ∀ earlier data rest result, later = earlier ++ .poll handle data :: rest →
    LeavesRunning handle future earlier →
    (future.onPoll (polls handle earlier)).ending.result? = some result →
    .cancel handle ∉ rest → .free handle ∉ rest →
    ((∀ flavour, .complete flavour handle ∉ rest) →
        s.Answers handle (.ofOutcome · handle (some result))) ∧
      ∀ flavour, .complete flavour handle ∈ rest → s.Answers handle fun _ => .notReady handle
  cancelled : .cancel handle ∈ later → .free handle ∉ later → s.StandsCancelled handle
  freed : .free handle ∈ later → s.Unknown handle

theorem outcomeLaw_of_keeps {future : Future TaskResult} {later : List Operation}
    (h : (Fate.ofRun handle future later).Keeps (s.tasks.get? handle)) :
    OutcomeLaw handle future later s where
  success := by
    rintro core rfl flavour reply hsuccess
    have hvalue := (complete_reports core flavour handle).value_of_success hsuccess
    rw [h.complete flavour] at hvalue
    obtain ⟨hended, hfits⟩ := Fate.ended_of_collects hvalue
    have hfree : .free handle ∉ later := fun hmem => by
      rw [Fate.ofRun_eq_freed.2 hmem] at hended
      cases hended
    have hcancel : .cancel handle ∉ later := fun hmem => by
      rw [Fate.ofRun_eq_cancelled.2 ⟨hmem, hfree⟩] at hended
      cases hended
    obtain ⟨n, hends⟩ := Fate.endsIn_of_ofRun hended
    exact ⟨n, _, hends, rfl, hfits, hcancel, hfree⟩
  early := by
    intro hruns
    rw [Fate.ofRun_eq_running.2 ⟨rfl, rfl, hruns⟩] at h
    refine ⟨h.answers, fun flavour => ?_⟩
    obtain ⟨task, htask, htaskruns⟩ := h
    rw [complete_runs htask htaskruns]
  ended := by
    rintro earlier data rest result rfl hruns hends hcancel hfree
    rw [Fate.ofRun_of_ends hruns hends] at h
    constructor
    · intro hcomplete
      rw [Fate.foldl_ended hcancel hfree hcomplete] at h
      exact h.answers
    · intro flavour hcomplete
      rw [Fate.foldl_taken hcancel hfree hcomplete] at h
      exact h.answers
  cancelled := by
    intro hcancel hfree
    rw [Fate.ofRun_eq_cancelled.2 ⟨hcancel, hfree⟩] at h
    obtain ⟨task, htask⟩ := h
    exact standsCancelled_of_forgotten htask
  freed := by
    intro hfree
    rw [Fate.ofRun_eq_freed.2 hfree] at h
    exact unknown_of_none h

/-- In every run, the value of a task is handed over once at most, and what is said of
its outcome at any time is the law; a handle that has not been issued is unknown. -/
theorem outcome_law :
    (∀ (before : List Operation) (future : Future TaskResult) (later : List Operation),
      let start := ({} : Store).after before
      let handle := start.nextHandle
      ((start.spawn future).store.deliveries handle later).length ≤ 1 ∧
        OutcomeLaw handle future later (({} : Store).after (before ++ .spawn future :: later))) ∧
    ∀ (ops : List Operation) (handle : Nat),
      (∀ before future later, ops = before ++ .spawn future :: later →
        (({} : Store).after before).nextHandle ≠ handle) →
      (({} : Store).after ops).Unknown handle := by
  constructor
  · intro before future later start handle
    constructor
    · have hspawned : (Fate.running future 0).Keeps
          ((start.spawn future).store.tasks.get? handle) := start.keeps_ofRun future []
      exact deliveries_length hspawned (Nat.lt_succ_self handle) later
    · rw [after_append]
      exact outcomeLaw_of_keeps (start.keeps_ofRun future later)
  · intro ops handle hunissued
    have hdead : ¬ (({} : Store).after ops).isLive handle = true := by
      rw [isLive_after]
      rintro ⟨before, future, later, hops, hissued, _⟩
      exact hunissued before future later hops hissued
    have hnone : (({} : Store).after ops).tasks.get? handle = none := by
      simpa [isLive, Table.contains] using hdead
    exact unknown_of_none hnone

end Store
end Task
end CoreBridge
