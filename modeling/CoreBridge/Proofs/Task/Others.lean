import CoreBridge.Proofs.Task.Continuation

/-!
# One task among others

What is done with other tasks and with wakers leaves a task as it is. A task
itself goes through the polls of its future, one after the other, until one of
them ends it, or is cancelled; after that a poll finds nothing to run.
-/
namespace CoreBridge.Task

/-- The task that an operation is done with. -/
def Operation.target? : Operation → Option Nat
  | .poll handle _ | .cancel handle | .free handle | .complete _ handle => some handle
  | .spawn _ | .wake _ => none

theorem Operation.not_supersedes {handle : Nat} {op : Operation}
    (h : op.target? ≠ some handle) : ¬ op.Supersedes handle := by
  intro hsup
  cases op with
  | poll h' data => exact h (congrArg some hsup)
  | free h' => exact h (congrArg some hsup)
  | _ => exact hsup

/-- A task that has been cancelled. -/
def LiveTask.forgotten (task : LiveTask) : LiveTask :=
  { task with future := none, output := none, cancelled := true, pending := none }

namespace Store

variable {s : Store} {handle h w id : Nat} {x : Waker} {op : Operation}

theorem get?_cancel (s : Store) (handle h : Nat) : (s.cancel handle).store.tasks.get? h =
    if handle = h then (s.tasks.get? h).map LiveTask.forgotten else s.tasks.get? h := by
  cases htask : s.tasks.get? handle with
  | none =>
    simp only [cancel, htask]
    split_ifs with hh
    · rw [← hh, htask]
      rfl
    · rfl
  | some task =>
    rw [← tasks_bare, cancel_live htask, bare_release, bare_dropFuture?, bare_setTask]
    simp only [setTask, Table.get?_set, tasks_bare]
    split_ifs with hh
    · rw [← hh, htask]
      rfl
    · rfl

theorem get?_free (s : Store) (handle h : Nat) : (s.free handle).store.tasks.get? h =
    if handle = h then none else s.tasks.get? h := by
  cases htask : s.tasks.get? handle with
  | none =>
    simp only [free, htask]
    split_ifs with hh
    · rw [← hh, htask]
    · rfl
  | some task =>
    rw [← tasks_bare]
    simp only [free, htask, bare_dropFuture?, bare_disarm?]
    simp only [tasks_bare, Table.get?_erase]

/-- What is done with others leaves a task alone. -/
theorem get?_perform_of_ne (hop : op.target? ≠ some h) (hh : h < s.nextHandle) :
    (s.perform op).store.tasks.get? h = s.tasks.get? h := by
  cases op with
  | spawn future =>
    simp only [perform, Step.map, spawn, Table.get?_set]
    exact if_neg (by omega)
  | poll handle data =>
    have hne : handle ≠ h := fun heq => hop (congrArg some heq)
    simp only [perform, Step.map, get?_poll, if_neg hne]
  | cancel handle =>
    have hne : handle ≠ h := fun heq => hop (congrArg some heq)
    simp only [perform, Step.map, get?_cancel, if_neg hne]
  | free handle =>
    have hne : handle ≠ h := fun heq => hop (congrArg some heq)
    simp only [perform, Step.map, get?_free, if_neg hne]
  | complete flavour handle =>
    have hne : handle ≠ h := fun heq => hop (congrArg some heq)
    obtain hsame | ⟨task, _, hset⟩ := s.complete_store flavour handle
    · simp only [perform, hsame]
    · simp only [perform, hset, setTask, Table.get?_set, if_neg hne]
  | wake v =>
    simp only [perform, Step.map, wake, wakeWith_store]
    rfl

/-! ## The wakers made so far -/

/-- Whether all wakers have been made with data below a bound. -/
def Below (s : Store) (bound : Nat) : Prop := ∀ y ∈ s.bare.wakers, y.data < bound

theorem Below.mono {bound bound' : Nat} (hs : s.Below bound) (hle : bound ≤ bound') :
    s.Below bound' := fun y hy => Nat.lt_of_lt_of_le (hs y hy) hle

theorem Below.unused {bound : Nat} (hs : s.Below bound) : s.Unused bound :=
  fun y hy => Nat.ne_of_lt (hs y hy)

theorem Below.perform {bound : Nat} (hs : s.Below bound)
    (hop : ∀ handle data, op = .poll handle data → data < bound) :
    (s.perform op).store.Below bound := by
  intro y hy
  obtain hsame | ⟨handle, data, rfl, hpush⟩ := s.wakers_perform op
  · rw [hsame] at hy
    exact hs y hy
  · rw [hpush, Array.mem_push] at hy
    obtain hold | rfl := hy
    · exact hs y hold
    · exact hop handle data rfl

/-- Waking the waker of a poll invokes its continuation with the same result,
however that comes about. -/
theorem Owed.woken (hw : s.Owed handle w x) (hop : op.target? ≠ some handle)
    (hdata : ∀ handle, op ≠ .poll handle x.data) (hwoken : w ∈ s.wakesOf op) :
    (s.perform op).trace.firings x.data = [pollMaybeReady] := by
  obtain ⟨_, hfire⟩ := hw.marked.perform hdata
  have hsup := Operation.not_supersedes hop
  have hcancel : op ≠ .cancel handle := by
    rintro rfl
    exact hop rfl
  have harmed : x.isArmed = true := by simp [Waker.isArmed, hw.armed]
  have hdisarm : s.disarmedBy op ≠ some w := fun heq => hsup ((hw.disarmedBy_iff op).1 heq)
  have hrelease : s.releasedBy op ≠ some w := fun heq => hcancel ((hw.releasedBy_iff op).1 heq)
  simpa only [hdisarm, hrelease, hwoken, harmed, if_true, if_false, true_and, false_and,
    List.append_nil] using hfire

/-! ## The polls of a task -/

end Store

/-- What a task comes to by the ending of a poll, if that ends it. -/
def Ending.result? : Ending TaskResult → Option TaskResult
  | .pending => none
  | .ready result => some result
  | .panicked panic => some (.error (.panic panic.message))

namespace LiveTask

/-- Whether the task runs a future of which `n` polls have been made. -/
structure Runs (future : Future TaskResult) (n : Nat) (task : LiveTask) : Prop where
  future : task.future = some future
  polls : task.wakers.size = n
  output : task.output = none
  cancelled : task.cancelled = false

/-- Whether the task has come to a result, which is still to be collected. -/
structure Yields (result : TaskResult) (task : LiveTask) : Prop where
  output : task.output = some result
  cancelled : task.cancelled = false

theorem runs_new (future : Future TaskResult) : Runs future 0 { future := some future } :=
  ⟨rfl, rfl, rfl, rfl⟩

variable {future : Future TaskResult} {n : Nat} {task : LiveTask}

theorem Runs.runnable? (h : task.Runs future n) : task.runnable? = some future := by
  simp [LiveTask.runnable?, h.cancelled, h.output, h.future]

end LiveTask

namespace Store

variable {s : Store} {handle data n : Nat} {task : LiveTask} {future : Future TaskResult}

theorem get?_poll_self (htask : s.tasks.get? handle = some task) :
    (s.poll handle data).store.tasks.get? handle = some (s.polled task) := by
  rw [get?_poll, if_pos rfl, htask]
  rfl

theorem pending?_eq (htask : s.tasks.get? handle = some task) :
    s.pending? handle = task.pending := by
  simp [pending?, htask]

/-- A poll of a task that has been cancelled finds nothing to run. -/
theorem poll_cancelled (htask : s.tasks.get? handle = some task)
    (hcancelled : task.cancelled = true) :
    (s.poll handle data).value = pollReady ∧ (s.polled task).cancelled = true := by
  have hrun : task.runnable? = none := by simp [LiveTask.runnable?, hcancelled]
  constructor
  · rw [poll_live htask, hrun]
  · simp only [polled, hrun, hcancelled]

/-- The poll in which its future ends leaves a task with what it comes to. -/
theorem poll_ends (htask : s.tasks.get? handle = some task) (hruns : task.Runs future n)
    {result : TaskResult} (hends : (future.onPoll n).ending.result? = some result) :
    (s.poll handle data).value = pollReady ∧ (s.polled task).Yields result := by
  have hpolled : s.polled task = settled { task with
      pending := none
      wakers := task.wakers.push s.wakers.size } s.wakers.size (future.onPoll n).ending := by
    simp only [polled, hruns.runnable?, hruns.polls]
  have hpending : (s.polled task).pending = none ∧ (s.polled task).Yields result := by
    rw [hpolled]
    cases hending : (future.onPoll n).ending with
    | pending => simp [hending, Ending.result?] at hends
    | ready r =>
      obtain rfl : r = result := by simpa [hending, Ending.result?] using hends
      exact ⟨rfl, rfl, hruns.cancelled⟩
    | panicked panic =>
      obtain rfl : .error (.panic panic.message) = result := by
        simpa [hending, Ending.result?] using hends
      exact ⟨rfl, rfl, hruns.cancelled⟩
  refine ⟨?_, hpending.2⟩
  obtain ⟨hready, _⟩ | ⟨_, hsome, _⟩ := s.poll_answer handle data
  · exact hready
  · rw [pending?_eq (get?_poll_self htask), hpending.1] at hsome
    cases hsome

/-- A poll in which its future stays pending leaves a task running. The
continuation is invoked if the poll's waker is woken meanwhile, and else owed. -/
theorem poll_pends (hs : s.Sound) (hdata : s.Unused data)
    (htask : s.tasks.get? handle = some task) (hruns : task.Runs future n)
    (hpends : (future.onPoll n).ending = .pending) :
    (s.poll handle data).value = pollPending ∧ (s.polled task).Runs future (n + 1) ∧
      if s.wakers.size ∈ s.wakesOf (.poll handle data) then
        (s.poll handle data).trace.firings data = [pollMaybeReady]
      else (s.poll handle data).store.Owed handle s.wakers.size ⟨data, .armed⟩ ∧
        (s.poll handle data).trace.firings data = [] := by
  have hpolled : s.polled task = { task with
      pending := some s.wakers.size
      wakers := task.wakers.push s.wakers.size } := by
    simp only [polled, hruns.runnable?, hruns.polls, hpends, settled]
  have hafter : (s.polled task).Runs future (n + 1) := by
    rw [hpolled]
    exact ⟨hruns.future, by simp [hruns.polls], hruns.output, hruns.cancelled⟩
  have hpending : (s.poll handle data).value = pollPending := by
    obtain ⟨_, hnone⟩ | ⟨hpending, _⟩ := s.poll_answer handle data
    · rw [pending?_eq (get?_poll_self htask), hpolled] at hnone
      cases hnone
    · exact hpending
  refine ⟨hpending, hafter, ?_⟩
  obtain ⟨hready, _⟩ | ⟨_, ⟨hwoken, _, hfire⟩ | ⟨hidle, howed, hfire⟩⟩ := poll_own hdata hs handle
  · exact absurd (hready.symm.trans hpending) (by decide)
  · rw [if_pos hwoken]
    exact hfire
  · rw [if_neg hidle]
    exact ⟨howed, hfire⟩

end Store
end CoreBridge.Task
