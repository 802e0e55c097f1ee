import CoreBridge.Proofs.Task.Others

/-!
# The fate of a task

What becomes of a task is decided by its future and by the operations on its handle
alone (`Fate.ofRun`): it runs until its future ends, then holds the outcome until that
is collected, and is cancelled or freed at any time. The store keeps of each task what
its fate says, after every run (`keeps_ofRun`).
-/
namespace CoreBridge.Task

/-- What has become of a task. -/
inductive Fate where
  /-- Its future has stayed pending in so many polls. -/
  | running (future : Future TaskResult) (polls : Nat)
  /-- Its future has ended, and the outcome is still to be collected. -/
  | ended (result : TaskResult)
  | collected
  | cancelled
  | freed

namespace Fate

/-- What a poll makes of a task whose future has been polled so often. -/
def polled (future : Future TaskResult) (polls : Nat) : Fate :=
  match (future.onPoll polls).ending.result? with
  | none => running future (polls + 1)
  | some result => ended result

/-- What an operation on a task makes of it. -/
def undergo : Fate → Operation → Fate
  | freed, _ | _, .free _ => freed
  | _, .cancel _ => cancelled
  | running future polls, .poll _ _ => polled future polls
  | ended _, .complete _ _ => collected
  | fate, _ => fate

/-- What an operation, on whatever task, makes of the task with this handle. -/
def step (handle : Nat) (fate : Fate) (op : Operation) : Fate :=
  if op.target? = some handle then fate.undergo op else fate

theorem step_of_target {handle : Nat} {fate : Fate} {op : Operation}
    (h : op.target? = some handle) : fate.step handle op = fate.undergo op := if_pos h

theorem step_of_ne {handle : Nat} {fate : Fate} {op : Operation} (h : op.target? ≠ some handle) :
    fate.step handle op = fate := if_neg h

/-- What a run makes of a task that is spawned before it. -/
def ofRun (handle : Nat) (future : Future TaskResult) (ops : List Operation) : Fate :=
  ops.foldl (step handle) (running future 0)

end Fate

namespace LiveTask

/-- Whether the task has no future left, but may have an outcome. -/
structure Rests (output : Option TaskResult) (task : LiveTask) : Prop where
  future : task.future = none
  output : task.output = output
  cancelled : task.cancelled = false
  pending : task.pending = none

/-- The task once its outcome has been asked for. -/
def emptied (task : LiveTask) : LiveTask :=
  if task.cancelled then task else { task with output := none }

variable {future : Future TaskResult} {n : Nat} {task : LiveTask} {output : Option TaskResult}

theorem Rests.runnable? (h : task.Rests output) : task.runnable? = none := by
  simp [LiveTask.runnable?, h.future]

theorem Rests.emptied (h : task.Rests output) : task.emptied.Rests none := by
  rw [LiveTask.emptied, if_neg (by simp [h.cancelled])]
  exact ⟨h.future, rfl, h.cancelled, h.pending⟩

theorem Runs.emptied (h : task.Runs future n) : task.emptied.Runs future n := by
  rw [LiveTask.emptied, if_neg (by simp [h.cancelled])]
  exact ⟨h.future, h.polls, rfl, h.cancelled⟩

theorem emptied_forgotten (task : LiveTask) : task.forgotten.emptied = task.forgotten := rfl

end LiveTask

namespace Store

variable {s : Store} {handle data n : Nat} {task : LiveTask} {future : Future TaskResult}
  {output : Option TaskResult}

/-- Asking for the outcome of a task takes it, if there is one. -/
theorem get?_complete (s : Store) (flavour : Flavour) (handle h : Nat) :
    (s.complete flavour handle).2.tasks.get? h =
      if handle = h then (s.tasks.get? h).map LiveTask.emptied else s.tasks.get? h := by
  have htaken : (s.complete flavour handle).2 = (s.takeOutput handle).2 := by
    unfold complete
    split
    · rename_i hout
      rw [hout]
      split <;> rfl
    · rfl
  rw [htaken]
  by_cases hh : handle = h
  · subst hh
    rw [if_pos rfl, takeOutput]
    cases htask : s.tasks.get? handle with
    | none => simp [htask]
    | some task =>
      by_cases hcancelled : task.cancelled = true
      · simp [hcancelled, htask, LiveTask.emptied]
      · cases houtput : task.output with
        | none =>
          have hsame : task.emptied = task := by
            obtain ⟨future, wakers, output, cancelled, pending⟩ := task
            simp_all [LiveTask.emptied]
          simp [hcancelled, houtput, htask, hsame]
        | some result =>
          rcases result with (bytes | message) | value <;>
            simp [hcancelled, houtput, setTask, LiveTask.emptied]
  · rw [if_neg hh, takeOutput]
    cases s.tasks.get? handle with
    | none => rfl
    | some task =>
      dsimp only
      split
      · rfl
      · split <;> simp [setTask, hh]

theorem polled_of_runs (s : Store) (h : task.Runs future n) :
    s.polled task = settled
      { task with pending := none, wakers := task.wakers.push s.wakers.size } s.wakers.size
      (future.onPoll n).ending := by
  simp only [polled, h.runnable?, h.polls]

theorem polled_of_rests (s : Store) (h : task.Rests output) : (s.polled task).Rests output := by
  simp only [polled, h.runnable?]
  exact ⟨h.future, h.output, h.cancelled, rfl⟩

theorem polled_forgotten (s : Store) (task : LiveTask) :
    s.polled task.forgotten = task.forgotten := rfl

end Store

namespace Fate

/-- What the store keeps of a task with this fate. -/
def Keeps : Fate → Option LiveTask → Prop
  | running future polls, kept => ∃ task, kept = some task ∧ task.Runs future polls
  | ended result, kept => ∃ task, kept = some task ∧ task.Rests (some result)
  | collected, kept => ∃ task, kept = some task ∧ task.Rests none
  | cancelled, kept => ∃ task, kept = some (LiveTask.forgotten task)
  | freed, kept => kept = none

variable {s : Store} {handle : Nat} {fate : Fate} {op : Operation} {kept : Option LiveTask}

/-- Unless it is freed, a task is live. -/
theorem Keeps.exists_task (h : fate.Keeps kept) (hfate : fate ≠ freed) :
    ∃ task, kept = some task := by
  cases fate with
  | running future polls => exact h.imp fun _ => And.left
  | ended result => exact h.imp fun _ => And.left
  | collected => exact h.imp fun _ => And.left
  | cancelled => exact ⟨_, h.choose_spec⟩
  | freed => exact absurd rfl hfate

theorem Keeps.polled (h : fate.Keeps kept) (data : Nat) :
    (fate.undergo (.poll handle data)).Keeps (kept.map s.polled) := by
  cases fate with
  | running future n =>
    obtain ⟨task, rfl, hruns⟩ := h
    simp only [undergo, Fate.polled, Option.map_some, Store.polled_of_runs s hruns]
    cases (future.onPoll n).ending with
    | pending =>
      exact ⟨_, rfl, hruns.future, by simp [Store.settled, hruns.polls], hruns.output,
        hruns.cancelled⟩
    | ready result => exact ⟨_, rfl, rfl, rfl, hruns.cancelled, rfl⟩
    | panicked panic => exact ⟨_, rfl, rfl, rfl, hruns.cancelled, rfl⟩
  | ended result =>
    obtain ⟨task, rfl, hrests⟩ := h
    exact ⟨_, rfl, s.polled_of_rests hrests⟩
  | collected =>
    obtain ⟨task, rfl, hrests⟩ := h
    exact ⟨_, rfl, s.polled_of_rests hrests⟩
  | cancelled =>
    obtain ⟨task, rfl⟩ := h
    exact ⟨task, congrArg some (s.polled_forgotten task)⟩
  | freed =>
    obtain rfl : kept = none := h
    rfl

theorem Keeps.emptied (h : fate.Keeps kept) (flavour : Flavour) :
    (fate.undergo (.complete flavour handle)).Keeps (kept.map LiveTask.emptied) := by
  cases fate with
  | running future n =>
    obtain ⟨task, rfl, hruns⟩ := h
    exact ⟨_, rfl, hruns.emptied⟩
  | ended result =>
    obtain ⟨task, rfl, hrests⟩ := h
    exact ⟨_, rfl, hrests.emptied⟩
  | collected =>
    obtain ⟨task, rfl, hrests⟩ := h
    exact ⟨_, rfl, hrests.emptied⟩
  | cancelled =>
    obtain ⟨task, rfl⟩ := h
    exact ⟨task, congrArg some task.emptied_forgotten⟩
  | freed =>
    obtain rfl : kept = none := h
    rfl

theorem Keeps.forgotten (h : fate.Keeps kept) :
    (fate.undergo (.cancel handle)).Keeps (kept.map LiveTask.forgotten) := by
  by_cases hfreed : fate = freed
  · subst hfreed
    obtain rfl : kept = none := h
    rfl
  · obtain ⟨task, rfl⟩ := h.exists_task hfreed
    have hcancelled : fate.undergo (.cancel handle) = cancelled := by
      cases fate <;> first | rfl | exact absurd rfl hfreed
    rw [hcancelled]
    exact ⟨task, rfl⟩

/-- One operation of the store is one step of every fate. -/
theorem Keeps.perform (h : fate.Keeps (s.tasks.get? handle)) (hissued : handle < s.nextHandle)
    (op : Operation) : (fate.step handle op).Keeps ((s.perform op).store.tasks.get? handle) := by
  by_cases htarget : op.target? = some handle
  · rw [step_of_target htarget]
    cases op with
    | spawn future => cases htarget
    | wake waker => cases htarget
    | poll h' data =>
      obtain rfl := Option.some.inj htarget
      simp only [Store.perform, Step.map, Store.get?_poll, if_true]
      exact h.polled data
    | cancel h' =>
      obtain rfl := Option.some.inj htarget
      simp only [Store.perform, Step.map, Store.get?_cancel, if_true]
      exact h.forgotten
    | free h' =>
      obtain rfl := Option.some.inj htarget
      simp only [Store.perform, Step.map, Store.get?_free, if_true]
      cases fate <;> rfl
    | complete flavour h' =>
      obtain rfl := Option.some.inj htarget
      simp only [Store.perform, Store.get?_complete, if_true]
      exact h.emptied flavour
  · rw [step_of_ne htarget, Store.get?_perform_of_ne htarget hissued]
    exact h

/-- A run of the store is a run of every fate. -/
theorem Keeps.after (h : fate.Keeps (s.tasks.get? handle)) (hissued : handle < s.nextHandle)
    (ops : List Operation) :
    (ops.foldl (step handle) fate).Keeps ((s.after ops).tasks.get? handle) := by
  induction ops generalizing s fate with
  | nil => exact h
  | cons op ops ih =>
    exact ih (h.perform hissued op) (Nat.lt_of_lt_of_le hissued (s.nextHandle_le_perform op))

end Fate

/-- What has become of a task is what the operations on it make of its future. -/
theorem Store.keeps_ofRun (s : Store) (future : Future TaskResult) (ops : List Operation) :
    (Fate.ofRun s.nextHandle future ops).Keeps
      ((s.after (.spawn future :: ops)).tasks.get? s.nextHandle) := by
  have hspawned : (s.spawn future).store.tasks.get? s.nextHandle =
      some { future := some future } := by
    rw [spawn, Table.get?_set, if_pos rfl]
  have hruns : (Fate.running future 0).Keeps
      ((s.spawn future).store.tasks.get? s.nextHandle) := ⟨_, hspawned, LiveTask.runs_new future⟩
  exact hruns.after (Nat.lt_succ_self s.nextHandle) ops

/-! ## The fate in words -/

/-- Whether the operation is a poll of this task. -/
def Operation.isPollOf (handle : Nat) : Operation → Bool
  | .poll h _ => h = handle
  | _ => false

/-- How often a run polls a task. -/
def polls (handle : Nat) (ops : List Operation) : Nat := ops.countP (·.isPollOf handle)

/-- Whether a run leaves a task running that has this future. -/
structure LeavesRunning (handle : Nat) (future : Future TaskResult) (ops : List Operation) :
    Prop where
  uncancelled : .cancel handle ∉ ops
  unfreed : .free handle ∉ ops
  /-- In each of the polls of the task, the future stays pending. -/
  pending : ∀ n < polls handle ops, (future.onPoll n).ending.result? = none

/-- Whether the future ends in the poll with this number, and not before. -/
structure Future.EndsIn (n : Nat) (result : TaskResult) (future : Future TaskResult) : Prop where
  pending : ∀ m < n, (future.onPoll m).ending.result? = none
  ends : (future.onPoll n).ending.result? = some result

namespace Fate

variable {handle n : Nat} {future f : Future TaskResult} {fate : Fate} {op : Operation}
  {ops : List Operation} {result : TaskResult}

theorem ofRun_concat :
    ofRun handle future (ops ++ [op]) = (ofRun handle future ops).step handle op := by
  simp only [ofRun, List.foldl_append, List.foldl_cons, List.foldl_nil]

theorem ne_cancel_of_target_ne (h : op.target? ≠ some handle) : op ≠ .cancel handle := by
  rintro rfl
  exact h rfl

theorem ne_free_of_target_ne (h : op.target? ≠ some handle) : op ≠ .free handle := by
  rintro rfl
  exact h rfl

theorem isPollOf_of_target_ne (h : op.target? ≠ some handle) : op.isPollOf handle = false := by
  cases op with
  | poll h' data => simpa [Operation.isPollOf, Operation.target?] using h
  | _ => rfl

theorem polled_ne {m : Nat} : polled future m ≠ freed ∧ polled future m ≠ cancelled := by
  unfold polled
  split
  · exact ⟨nofun, nofun⟩
  · exact ⟨nofun, nofun⟩

/-- Only freeing a task makes it freed, and it stays so. -/
theorem step_eq_freed : fate.step handle op = freed ↔ fate = freed ∨ op = .free handle := by
  by_cases htarget : op.target? = some handle
  · rw [step_of_target htarget]
    cases op with
    | spawn f => cases htarget
    | wake waker => cases htarget
    | poll h data => cases fate <;> simp [undergo, polled_ne.1]
    | cancel h => cases fate <;> simp [undergo]
    | free h =>
      obtain rfl := Option.some.inj htarget
      cases fate <;> simp [undergo]
    | complete flavour h => cases fate <;> simp [undergo]
  · rw [step_of_ne htarget]
    simp [ne_free_of_target_ne htarget]

/-- Only cancelling a task makes it cancelled, and it stays so until it is freed. -/
theorem step_eq_cancelled : fate.step handle op = cancelled ↔
    (fate = cancelled ∨ op = .cancel handle) ∧ fate ≠ freed ∧ op ≠ .free handle := by
  by_cases htarget : op.target? = some handle
  · rw [step_of_target htarget]
    cases op with
    | spawn f => cases htarget
    | wake waker => cases htarget
    | poll h data => cases fate <;> simp [undergo, polled_ne.2]
    | cancel h =>
      obtain rfl := Option.some.inj htarget
      cases fate <;> simp [undergo]
    | free h =>
      obtain rfl := Option.some.inj htarget
      cases fate <;> simp [undergo]
    | complete flavour h => cases fate <;> simp [undergo]
  · rw [step_of_ne htarget]
    have hcancel := ne_cancel_of_target_ne htarget
    have hfree := ne_free_of_target_ne htarget
    cases fate <;> simp [hcancel, hfree]

/-- A task has been freed if the run does so. -/
theorem ofRun_eq_freed : ofRun handle future ops = freed ↔ .free handle ∈ ops := by
  induction ops using List.reverseRecOn with
  | nil => simp [ofRun]
  | append_singleton ops op ih =>
    rw [ofRun_concat, step_eq_freed, ih, List.mem_append, List.mem_singleton, eq_comm]

/-- A task stands cancelled if the run cancels but does not free it. -/
theorem ofRun_eq_cancelled :
    ofRun handle future ops = cancelled ↔ .cancel handle ∈ ops ∧ .free handle ∉ ops := by
  induction ops using List.reverseRecOn with
  | nil => simp [ofRun]
  | append_singleton ops op ih =>
    rw [ofRun_concat, step_eq_cancelled, ih, Ne, ofRun_eq_freed]
    simp only [List.mem_append, List.mem_singleton, eq_comm (b := op)]
    tauto

theorem polled_eq_running {m : Nat} : polled future m = running f n ↔
    f = future ∧ n = m + 1 ∧ (future.onPoll m).ending.result? = none := by
  unfold polled
  cases (future.onPoll m).ending.result? with
  | none => simp [eq_comm]
  | some result => simp

/-- What has been running before and has not been cancelled or freed still runs, unless
its future ends in a poll. -/
theorem step_eq_running : fate.step handle op = running f n ↔
    (fate = running f n ∧ op ≠ .cancel handle ∧ op ≠ .free handle ∧ op.isPollOf handle = false) ∨
      ∃ m, n = m + 1 ∧ fate = running f m ∧ op.isPollOf handle = true ∧
        (f.onPoll m).ending.result? = none := by
  by_cases htarget : op.target? = some handle
  · rw [step_of_target htarget]
    cases op with
    | poll h data =>
      obtain rfl := Option.some.inj htarget
      cases fate with
      | running future m =>
        simp only [undergo, polled_eq_running, Operation.isPollOf]
        constructor
        · rintro ⟨rfl, rfl, hpends⟩
          exact .inr ⟨m, rfl, rfl, by simp, hpends⟩
        · rintro (⟨_, _, _, hno⟩ | ⟨k, rfl, hfate, _, hpends⟩)
          · simp at hno
          · cases hfate
            exact ⟨rfl, rfl, hpends⟩
      | _ => simp [undergo]
    | cancel h =>
      obtain rfl := Option.some.inj htarget
      cases fate <;> simp [undergo, Operation.isPollOf]
    | free h =>
      obtain rfl := Option.some.inj htarget
      cases fate <;> simp [undergo, Operation.isPollOf]
    | complete flavour h => cases fate <;> simp [undergo, Operation.isPollOf]
    | spawn future => cases htarget
    | wake waker => cases htarget
  · rw [step_of_ne htarget]
    simp [ne_cancel_of_target_ne htarget, ne_free_of_target_ne htarget,
      isPollOf_of_target_ne htarget]

/-- A task that has ended had done so before, or ends in the poll that is made. -/
theorem ended_of_step (h : fate.step handle op = ended result) :
    fate = ended result ∨
      ∃ f n, fate = running f n ∧ (f.onPoll n).ending.result? = some result := by
  by_cases htarget : op.target? = some handle
  · rw [step_of_target htarget] at h
    cases fate with
    | running f n =>
      cases op with
      | poll h' data =>
        simp only [undergo, polled] at h
        split at h
        · cases h
        · rename_i r hends
          obtain rfl := Fate.ended.inj h
          exact .inr ⟨f, n, rfl, hends⟩
      | _ => cases h
    | ended r => cases op <;> first | exact .inl h | cases h
    | _ => cases op <;> cases h
  · rw [step_of_ne htarget] at h
    exact .inl h

theorem polls_concat : polls handle (ops ++ [op]) =
    polls handle ops + if op.isPollOf handle then 1 else 0 := by
  rw [polls, List.countP_append, List.countP_singleton]
  rfl

/-- What a run has to be to leave a task running, by its last operation. -/
theorem leavesRunning_concat : LeavesRunning handle future (ops ++ [op]) ↔
    LeavesRunning handle future ops ∧ op ≠ .cancel handle ∧ op ≠ .free handle ∧
      (op.isPollOf handle = true →
        (future.onPoll (polls handle ops)).ending.result? = none) := by
  constructor
  · rintro ⟨huncancelled, hunfreed, hpending⟩
    rw [polls_concat] at hpending
    simp only [List.mem_append, List.mem_singleton, not_or] at huncancelled hunfreed
    refine ⟨⟨huncancelled.1, hunfreed.1, fun n hn => hpending n (by omega)⟩,
      Ne.symm huncancelled.2, Ne.symm hunfreed.2, fun hpoll => hpending _ ?_⟩
    rw [if_pos hpoll]
    exact Nat.lt_succ_self _
  · rintro ⟨hruns, hcancel, hfree, hlast⟩
    refine ⟨?_, ?_, fun n hn => ?_⟩
    · simpa [hcancel.symm] using hruns.uncancelled
    · simpa [hfree.symm] using hruns.unfreed
    · rw [polls_concat] at hn
      by_cases hpoll : op.isPollOf handle = true
      · rw [if_pos hpoll] at hn
        obtain hlt | rfl := Nat.lt_succ_iff_lt_or_eq.1 hn
        · exact hruns.pending n hlt
        · exact hlast hpoll
      · rw [if_neg hpoll] at hn
        exact hruns.pending n hn

theorem leavesRunning_nil : LeavesRunning handle future [] :=
  ⟨List.not_mem_nil, List.not_mem_nil, fun _ hn => absurd hn (Nat.not_lt_zero _)⟩

/-- A task runs after so many polls if the run leaves it running. -/
theorem ofRun_eq_running : ofRun handle future ops = running f n ↔
    f = future ∧ n = polls handle ops ∧ LeavesRunning handle future ops := by
  induction ops using List.reverseRecOn generalizing n with
  | nil => simp [ofRun, polls, leavesRunning_nil, eq_comm]
  | append_singleton ops op ih =>
    simp only [ofRun_concat, step_eq_running, ih, leavesRunning_concat, polls_concat]
    by_cases hpoll : op.isPollOf handle = true
    · have hcancel : op ≠ .cancel handle := by
        rintro rfl
        cases hpoll
      have hfree : op ≠ .free handle := by
        rintro rfl
        cases hpoll
      constructor
      · rintro (⟨_, _, _, hno⟩ | ⟨m, rfl, ⟨rfl, rfl, hruns⟩, _, hpends⟩)
        · rw [hpoll] at hno
          cases hno
        · exact ⟨rfl, by rw [if_pos hpoll], hruns, hcancel, hfree, fun _ => hpends⟩
      · rintro ⟨rfl, rfl, hruns, _, _, hpends⟩
        exact .inr ⟨_, by rw [if_pos hpoll], ⟨rfl, rfl, hruns⟩, hpoll, hpends hpoll⟩
    · simp only [hpoll, Bool.false_eq_true, if_false, false_and, and_false, exists_false, or_false,
        Nat.add_zero, false_implies, and_true]
      tauto

/-- What a task has come to is what its future ends in. -/
theorem endsIn_of_ofRun (h : ofRun handle future ops = ended result) :
    ∃ n, future.EndsIn n result := by
  induction ops using List.reverseRecOn with
  | nil => cases h
  | append_singleton ops op ih =>
    rw [ofRun_concat] at h
    obtain hbefore | ⟨f, n, hruns, hends⟩ := ended_of_step h
    · exact ih hbefore
    · obtain ⟨rfl, _, hleaves⟩ := ofRun_eq_running.1 hruns
      exact ⟨n, fun m hm => hleaves.pending m (by omega), hends⟩

/-- The poll in which its future ends leaves a task ended. -/
theorem ofRun_of_ends {earlier rest : List Operation} {data : Nat}
    (hruns : LeavesRunning handle future earlier)
    (hends : (future.onPoll (polls handle earlier)).ending.result? = some result) :
    ofRun handle future (earlier ++ .poll handle data :: rest) =
      rest.foldl (step handle) (ended result) := by
  have hearlier : ofRun handle future earlier = running future (polls handle earlier) :=
    ofRun_eq_running.2 ⟨rfl, rfl, hruns⟩
  have hpoll : (running future (polls handle earlier)).step handle (.poll handle data) =
      ended result := by
    have htarget : (Operation.poll handle data).target? = some handle := rfl
    simp only [step, if_pos htarget, undergo, polled, hends]
  rw [ofRun] at hearlier ⊢
  rw [List.foldl_append, hearlier, List.foldl_cons, hpoll]

/-- What is done with a task that has ended, short of cancelling or freeing it, leaves it
as it is, or takes its outcome. -/
theorem step_ended (result : TaskResult) (hcancel : op ≠ .cancel handle) (hfree : op ≠ .free handle) :
    ((ended result).step handle op = ended result ∧ ∀ flavour, op ≠ .complete flavour handle) ∨
      ((ended result).step handle op = collected ∧ ∃ flavour, op = .complete flavour handle) := by
  by_cases htarget : op.target? = some handle
  · rw [step_of_target htarget]
    cases op with
    | poll h data => exact .inl ⟨rfl, nofun⟩
    | complete flavour h =>
      obtain rfl := Option.some.inj htarget
      exact .inr ⟨rfl, flavour, rfl⟩
    | cancel h => exact absurd (congrArg Operation.cancel (Option.some.inj htarget)) hcancel
    | free h => exact absurd (congrArg Operation.free (Option.some.inj htarget)) hfree
    | spawn f => cases htarget
    | wake waker => cases htarget
  · rw [step_of_ne htarget]
    refine .inl ⟨rfl, ?_⟩
    rintro flavour rfl
    exact htarget rfl

theorem step_collected (hcancel : op ≠ .cancel handle) (hfree : op ≠ .free handle) :
    collected.step handle op = collected := by
  by_cases htarget : op.target? = some handle
  · rw [step_of_target htarget]
    cases op with
    | cancel h => exact absurd (congrArg Operation.cancel (Option.some.inj htarget)) hcancel
    | free h => exact absurd (congrArg Operation.free (Option.some.inj htarget)) hfree
    | _ => rfl
  · rw [step_of_ne htarget]

section Spared

variable (hcancel : .cancel handle ∉ ops) (hfree : .free handle ∉ ops)
include hcancel hfree

/-- The outcome of a task is handed out once. -/
theorem foldl_collected : ops.foldl (step handle) collected = collected := by
  induction ops with
  | nil => rfl
  | cons op ops ih =>
    rw [List.mem_cons, not_or] at hcancel hfree
    rw [List.foldl_cons, step_collected (Ne.symm hcancel.1) (Ne.symm hfree.1)]
    exact ih hcancel.2 hfree.2

/-- Until the outcome of a task is asked for, the task holds it. -/
theorem foldl_ended (hcomplete : ∀ flavour, .complete flavour handle ∉ ops) :
    ops.foldl (step handle) (ended result) = ended result := by
  induction ops with
  | nil => rfl
  | cons op ops ih =>
    simp only [List.mem_cons, not_or] at hcancel hfree hcomplete
    obtain ⟨hkept, _⟩ | ⟨_, flavour, hop⟩ :=
      step_ended result (Ne.symm hcancel.1) (Ne.symm hfree.1)
    · rw [List.foldl_cons, hkept]
      exact ih hcancel.2 hfree.2 fun flavour => (hcomplete flavour).2
    · exact absurd hop.symm (hcomplete flavour).1

/-- Asking for the outcome of a task that has ended takes it, whatever the shape. -/
theorem foldl_taken {flavour : Flavour} (hcomplete : .complete flavour handle ∈ ops) :
    ops.foldl (step handle) (ended result) = collected := by
  induction ops with
  | nil => cases hcomplete
  | cons op ops ih =>
    simp only [List.mem_cons, not_or] at hcancel hfree
    rw [List.foldl_cons]
    obtain ⟨hkept, hne⟩ | ⟨htaken, _⟩ :=
      step_ended result (Ne.symm hcancel.1) (Ne.symm hfree.1)
    · rw [hkept]
      exact ih hcancel.2 hfree.2 (List.mem_of_ne_of_mem (hne flavour).symm hcomplete)
    · rw [htaken]
      exact foldl_collected hcancel.2 hfree.2

end Spared

end Fate

/-! ## Which handles are live -/

namespace Store

variable {s : Store} {handle : Nat} {op : Operation} {ops : List Operation}

/-- A handle that is live has been so before, and is not freed, or has just been issued. -/
theorem isLive_of_perform (h : (s.perform op).store.isLive handle = true) :
    (s.isLive handle = true ∧ op ≠ .free handle) ∨
      ∃ future, op = .spawn future ∧ s.nextHandle = handle := by
  unfold isLive Table.contains at h ⊢
  have hfree : op ≠ .free handle := by
    rintro rfl
    simp [perform, Step.map, get?_free] at h
  by_cases hbefore : (s.tasks.get? handle).isSome = true
  · exact .inl ⟨hbefore, hfree⟩
  · have hnone : s.tasks.get? handle = none := by simpa using hbefore
    by_contra hneither
    have hspawn : ∀ future, op = .spawn future → handle ≠ s.nextHandle := by
      rintro future rfl rfl
      exact hneither (.inr ⟨future, rfl, rfl⟩)
    rw [get?_perform_of_none hnone op hspawn] at h
    cases h

/-- A handle is live exactly from the spawn that issues it until it is freed. -/
theorem isLive_after : (({} : Store).after ops).isLive handle = true ↔
    ∃ before future later, ops = before ++ .spawn future :: later ∧
      (({} : Store).after before).nextHandle = handle ∧ .free handle ∉ later := by
  constructor
  · intro h
    induction ops using List.reverseRecOn with
    | nil => cases h
    | append_singleton ops op ih =>
      rw [after_append] at h
      obtain ⟨hbefore, hfree⟩ | ⟨future, rfl, hissued⟩ := isLive_of_perform h
      · obtain ⟨before, future, later, rfl, hissued, hlater⟩ := ih hbefore
        refine ⟨before, future, later ++ [op], by simp, hissued, ?_⟩
        simpa [hfree.symm] using hlater
      · exact ⟨ops, future, [], rfl, hissued, List.not_mem_nil⟩
  · rintro ⟨before, future, later, rfl, rfl, hlater⟩
    have hkeeps := (({} : Store).after before).keeps_ofRun future later
    have hfate : Fate.ofRun (({} : Store).after before).nextHandle future later ≠ .freed := by
      rwa [Ne, Fate.ofRun_eq_freed]
    obtain ⟨task, htask⟩ := hkeeps.exists_task hfate
    rw [after_append, isLive, Table.contains, htask]
    rfl

end Store
end CoreBridge.Task
