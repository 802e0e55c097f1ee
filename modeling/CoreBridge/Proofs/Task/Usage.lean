import CoreBridge.Proofs.Task.Recast

/-!
# How futures are used

A store drops a future when it ends or its task is cancelled or freed, and only then:
of every task it has dropped as many futures as have been spawned for it and are not
held any more (`drops_perform`). It issues its handles in order (`issued_eq`), and asks a
future for its behaviour only while its task is running (`usage_law`).
-/
namespace CoreBridge

namespace Trace

/-- How often the future of a task is dropped. -/
def drops (handle : Nat) (trace : Trace) : Nat := trace.count (.futureDropped handle)

@[simp] theorem drops_nil (handle : Nat) : drops handle [] = 0 := rfl

@[simp] theorem drops_append (handle : Nat) (first second : Trace) :
    drops handle (first ++ second) = drops handle first + drops handle second :=
  List.count_append

@[simp] theorem drops_cons (handle : Nat) (o : Observation) (trace : Trace) :
    drops handle (o :: trace) =
      drops handle trace + if o = .futureDropped handle then 1 else 0 := by
  simp only [drops, List.count_cons, beq_iff_eq]

end Trace

namespace Task.Store

open Trace

variable {s : Store} {handle h : Nat}

/-! ## What an operation drops -/

theorem drops_wakeWith (s : Store) (waker : Nat) (result : Int) :
    (s.wakeWith waker result).trace.drops h = 0 := by
  unfold wakeWith
  split
  · rfl
  · dsimp only
    split <;> simp

theorem drops_wakeAll (s : Store) (own : Array Nat) (refs : List WakerRef) :
    (s.wakeAll own refs).trace.drops h = 0 := by
  induction refs generalizing s with
  | nil => rfl
  | cons ref refs ih =>
    unfold wakeAll
    simp only [drops_append, ih, Nat.add_zero]
    split
    · apply drops_wakeWith
    · rfl

theorem drops_release (s : Store) (p : Option Nat) : (s.release p).trace.drops h = 0 := by
  cases p with
  | none => rfl
  | some waker => apply drops_wakeWith

theorem drops_dropFuture? (s : Store) (own : Array Nat) (future : Option (Future TaskResult)) :
    (s.dropFuture? handle own future).trace.drops h =
      if handle = h ∧ future.isSome = true then 1 else 0 := by
  cases future with
  | none => simp [dropFuture?]
  | some future => simp [dropFuture?, dropFuture, drops_wakeAll]

theorem drops_settle (s : Store) (waker : Nat) (task : LiveTask) (future : Future TaskResult)
    (ending : Ending TaskResult) : (s.settle handle waker task future ending).trace.drops h =
      if handle = h ∧ ending.result?.isSome = true then 1 else 0 := by
  have hfinish (result : TaskResult) :
      (s.finish handle waker task future result).trace.drops h = if handle = h then 1 else 0 := by
    simp [finish, dropFuture, drops_wakeAll]
  cases ending with
  | pending =>
    rw [settle, suspend_eq]
    dsimp only
    split
    · split <;> simp [Ending.result?]
    · simp [Ending.result?]
  | ready result => simpa [settle, Ending.result?] using hfinish result
  | panicked panic => simpa [settle, Ending.result?] using hfinish (.error (.panic panic.message))

theorem drops_pollFuture (s : Store) (data : Nat) (task : LiveTask) (future : Future TaskResult) :
    (s.pollFuture handle data task future).trace.drops h =
      if handle = h ∧ (future.onPoll task.wakers.size).ending.result?.isSome = true then 1
      else 0 := by
  simp only [pollFuture, drops_append, drops_settle, runTurn_eq, drops_wakeAll, Nat.zero_add]

/-- How many futures a store holds for a task. -/
def held (s : Store) (handle : Nat) : Nat :=
  if ((s.tasks.get? handle).bind (·.future)).isSome then 1 else 0

theorem held_of_get? {task : LiveTask} (htask : s.tasks.get? handle = some task) :
    s.held handle = if task.future.isSome then 1 else 0 := by
  rw [held, htask, Option.bind_some]

theorem held_of_none (hnone : s.tasks.get? handle = none) : s.held handle = 0 := by
  rw [held, hnone]
  rfl

theorem held_congr {t : Store} (h : s.tasks.get? handle = t.tasks.get? handle) :
    s.held handle = t.held handle := by
  rw [held, held, h]

theorem drops_poll (s : Store) (handle data : Nat) :
    (s.poll handle data).trace.drops handle + (s.poll handle data).store.held handle =
      s.held handle := by
  cases htask : s.tasks.get? handle with
  | none =>
    rw [poll_unknown htask]
    simp
  | some task =>
    rw [held_of_get? (get?_poll_self htask), held_of_get? htask, poll_live htask, polled]
    cases hrun : task.runnable? with
    | none => simp
    | some f =>
      have hfuture := LiveTask.future_of_runnable? hrun
      simp only [drops_pollFuture, hfuture]
      cases (f.onPoll task.wakers.size).ending with
      | pending => simp [settled, Ending.result?]
      | ready result => simp [settled, Ending.result?]
      | panicked panic => simp [settled, Ending.result?]

theorem drops_poll_of_ne (s : Store) {handle h : Nat} (data : Nat) (hne : handle ≠ h) :
    (s.poll handle data).trace.drops h = 0 := by
  cases htask : s.tasks.get? handle with
  | none =>
    rw [poll_unknown htask]
    simp
  | some task =>
    rw [poll_live htask]
    cases task.runnable? with
    | none => rfl
    | some f => simp [drops_pollFuture, hne]

theorem drops_cancel (s : Store) (handle h : Nat) : (s.cancel handle).trace.drops h =
    if handle = h then s.held handle else 0 := by
  cases htask : s.tasks.get? handle with
  | none => simp [cancel, htask, held_of_none]
  | some task =>
    rw [cancel_live htask, held_of_get? htask]
    simp only [drops_append, drops_dropFuture?, drops_release]
    by_cases hh : handle = h <;> simp [hh]

theorem drops_free (s : Store) (handle h : Nat) : (s.free handle).trace.drops h =
    if handle = h then s.held handle else 0 := by
  cases htask : s.tasks.get? handle with
  | none => simp [free, htask, held_of_none]
  | some task =>
    simp only [free, htask, drops_dropFuture?, held_of_get? htask]
    by_cases hh : handle = h <;> simp [hh]

theorem held_cancel (s : Store) (handle h : Nat) :
    (s.cancel handle).store.held h = if handle = h then 0 else s.held h := by
  simp only [held, get?_cancel]
  split
  · cases s.tasks.get? h <;> rfl
  · rfl

theorem held_free (s : Store) (handle h : Nat) :
    (s.free handle).store.held h = if handle = h then 0 else s.held h := by
  simp only [held, get?_free]
  split <;> rfl

theorem held_complete (s : Store) (flavour : Flavour) (handle h : Nat) :
    (s.complete flavour handle).2.held h = s.held h := by
  have hfuture (task : LiveTask) : task.emptied.future = task.future := by
    unfold LiveTask.emptied
    split <;> rfl
  simp only [held, get?_complete]
  split
  · cases s.tasks.get? h with
    | none => rfl
    | some task => simp only [Option.map_some, Option.bind_some, hfuture]
  · rfl

/-- What a store held for a task before an operation, it has dropped in it or holds
after it. -/
theorem drops_perform {op : Operation} (hspawn : ∀ future, op = .spawn future → s.nextHandle ≠ h) :
    (s.perform op).trace.drops h + (s.perform op).store.held h = s.held h := by
  cases op with
  | spawn future =>
    have hkept : (s.spawn future).store.tasks.get? h = s.tasks.get? h := by
      rw [spawn, Table.get?_set, if_neg (hspawn future rfl)]
    exact (Nat.zero_add _).trans (held_congr hkept)
  | poll handle data =>
    by_cases hh : handle = h
    · subst hh
      exact s.drops_poll handle data
    · have hkept : (s.poll handle data).store.tasks.get? h = s.tasks.get? h := by
        rw [get?_poll, if_neg hh]
      simp only [perform, Step.map, s.drops_poll_of_ne data hh, held_congr hkept, Nat.zero_add]
  | cancel handle =>
    simp only [perform, Step.map, drops_cancel, held_cancel]
    by_cases hh : handle = h <;> simp [hh]
  | free handle =>
    simp only [perform, Step.map, drops_free, held_free]
    by_cases hh : handle = h <;> simp [hh]
  | complete flavour handle => simp only [perform, held_complete, drops_nil, Nat.zero_add]
  | wake waker =>
    simp only [perform, Step.map, wake, drops_wakeWith, wakeWith_store, Nat.zero_add]
    rfl

/-! ## What a run drops -/

theorem nextHandle_le_after (s : Store) (ops : List Operation) :
    s.nextHandle ≤ (s.after ops).nextHandle := by
  induction ops generalizing s with
  | nil => exact le_rfl
  | cons op ops ih => exact (s.nextHandle_le_perform op).trans (ih (s.perform op).store)

/-- Over a run that does not issue the handle, what a store held for it is dropped or
still held in the end. -/
theorem drops_traceOf (s : Store) (ops : List Operation)
    (hissued : h < s.nextHandle ∨ (s.after ops).nextHandle ≤ h) :
    (s.traceOf ops).drops h + (s.after ops).held h = s.held h := by
  induction ops generalizing s with
  | nil => exact Nat.zero_add _
  | cons op ops ih =>
    have hnext := nextHandle_perform s op
    have hlast := (s.perform op).store.nextHandle_le_after ops
    have hspawn : ∀ future, op = .spawn future → s.nextHandle ≠ h := by
      rintro future rfl
      rw [after] at hissued
      dsimp only at hnext
      omega
    have hrest := ih (s.perform op).store
      (hissued.imp_left fun hlt => Nat.lt_of_lt_of_le hlt (s.nextHandle_le_perform op))
    have hfirst := drops_perform hspawn
    rw [traceOf, after, drops_append]
    omega

theorem held_le_one (s : Store) (handle : Nat) : s.held handle ≤ 1 := by
  unfold held
  split <;> omega

/-- The future of a task is held as long as the task is running. -/
theorem held_eq_one (s : Store) (future : Future TaskResult) (ops : List Operation) :
    (s.after (.spawn future :: ops)).held s.nextHandle = 1 ↔
      LeavesRunning s.nextHandle future ops := by
  have hkeeps := s.keeps_ofRun future ops
  constructor
  · intro hheld
    rw [held] at hheld
    split at hheld
    · rename_i hsome
      obtain ⟨f, hf⟩ := Option.isSome_iff_exists.1 hsome
      obtain ⟨task, htask, hfuture⟩ := Option.bind_eq_some_iff.1 hf
      rw [htask] at hkeeps
      exact (Fate.ofRun_eq_running.1 (hkeeps.running_of_future hfuture)).2.2
    · cases hheld
  · intro hruns
    rw [Fate.ofRun_eq_running.2 ⟨rfl, rfl, hruns⟩] at hkeeps
    obtain ⟨task, htask, htaskruns⟩ := hkeeps
    rw [held_of_get? htask, htaskruns.future]
    rfl

/-! ## Handles -/

/-- The handles that a run issues, in order. -/
def issued (s : Store) : List Operation → List Nat
  | [] => []
  | .spawn future :: ops => (s.spawn future).value :: (s.spawn future).store.issued ops
  | op :: ops => (s.perform op).store.issued ops

/-- A run issues the handles from the next one on, one for each spawn. -/
theorem issued_eq (s : Store) (ops : List Operation) :
    s.issued ops = List.range' s.nextHandle (ops.countP fun op => op matches .spawn _) := by
  induction ops generalizing s with
  | nil => rfl
  | cons op ops ih =>
    cases op with
    | spawn future =>
      rw [issued, ih]
      simp only [List.countP_cons]
      exact List.range'_succ.symm
    | _ =>
      rw [issued, ih, nextHandle_perform]
      · rfl
      · exact fun _ heq => nomatch heq

end Task.Store

/-! ## What a run does with a future -/

namespace Task

/-- Whether an operation ends the task under `handle` that runs this future, of which `n`
polls have been made: a poll in which the future ends, or that it is cancelled or freed. -/
def Operation.Ends (handle : Nat) (future : Future TaskResult) (n : Nat) : Operation → Prop
  | .poll h _ => h = handle ∧ (future.onPoll n).ending.result?.isSome = true
  | .cancel h | .free h => h = handle
  | .spawn _ | .complete _ _ | .wake _ => False

theorem ends_iff {handle : Nat} {future : Future TaskResult} {ops : List Operation}
    {op : Operation} (hruns : LeavesRunning handle future ops) :
    op.Ends handle future (polls handle ops) ↔ ¬ LeavesRunning handle future (ops ++ [op]) := by
  rw [Fate.leavesRunning_concat]
  cases op with
  | poll h data =>
    cases hends : (future.onPoll (polls handle ops)).ending.result? <;>
      simp [Operation.Ends, Operation.isPollOf, hends, hruns]
  | cancel h => simp [Operation.Ends, Operation.isPollOf, hruns]
  | free h => simp [Operation.Ends, Operation.isPollOf, hruns]
  | _ => simp [Operation.Ends, Operation.isPollOf, hruns]

namespace Store

/-- A poll makes a waker if it finds the task running, and only then. -/
theorem size_poll_iff (s : Store) (future : Future TaskResult) (ops : List Operation) (data : Nat) :
    let t := s.after (.spawn future :: ops)
    (t.poll s.nextHandle data).store.wakers.size = t.wakers.size + 1 ↔
      LeavesRunning s.nextHandle future ops := by
  intro t
  rw [← held_eq_one]
  cases htask : t.tasks.get? s.nextHandle with
  | none =>
    rw [poll_unknown htask, held_of_none htask]
    simp
  | some task =>
    have hkeeps := s.keeps_ofRun future ops
    rw [show s.after (.spawn future :: ops) = t by rfl, htask] at hkeeps
    rw [held_of_get? htask]
    cases hfuture : task.future with
    | none =>
      have hrun : task.runnable? = none := by simp [LiveTask.runnable?, hfuture]
      rw [poll_live htask, hrun]
      simp
    | some f =>
      obtain ⟨live, heq, hruns⟩ : (Fate.running f task.wakers.size).Keeps (some task) := by
        rwa [← hkeeps.running_of_future hfuture]
      obtain rfl := Option.some.inj heq
      simp [size_poll htask hruns.runnable?]

/-- How a future is used that has been spawned in a store, if `later` is what has been
done since. -/
structure UsageLaw (start : Store) (future : Future TaskResult) (later : List Operation) :
    Prop where
  /-- A poll of its task hands the future a waker if the task is running, and only then. -/
  polled : ∀ earlier data rest, later = earlier ++ .poll start.nextHandle data :: rest →
    let s := start.after (.spawn future :: earlier)
    (s.poll start.nextHandle data).store.wakers.size = s.wakers.size + 1 ↔
      LeavesRunning start.nextHandle future earlier
  /-- Another future that behaves alike in these polls, and as it is dropped by what ends
  the task, makes no difference. -/
  asked : ∀ g, AlikeAlong start.nextHandle future g later →
    start.after (.spawn g :: later) =
        (start.after (.spawn future :: later)).recast (replacing start.nextHandle g) ∧
      start.traceOf (.spawn g :: later) = start.traceOf (.spawn future :: later)
  /-- The future is dropped by what ends the task, and by nothing else. -/
  dropped : ∀ earlier op rest, later = earlier ++ op :: rest →
    let trace := ((start.after (.spawn future :: earlier)).perform op).trace
    trace.drops start.nextHandle ≤ 1 ∧ (trace.drops start.nextHandle = 1 ↔
      LeavesRunning start.nextHandle future earlier ∧
        op.Ends start.nextHandle future (polls start.nextHandle earlier))

theorem usageLaw (start : Store) (hs : start.Sound) (future : Future TaskResult)
    (later : List Operation) : start.UsageLaw future later where
  polled := fun earlier data _ _ => start.size_poll_iff future earlier data
  asked := fun _ halike => recast_run hs halike
  dropped := by
    rintro earlier op rest rfl trace
    let s := start.after (.spawn future :: earlier)
    have hissued : start.nextHandle < s.nextHandle :=
      (start.spawn future).store.nextHandle_le_after earlier
    have hdrops : trace.drops start.nextHandle + (s.perform op).store.held start.nextHandle =
        s.held start.nextHandle := drops_perform fun _ _ => Nat.ne_of_gt hissued
    have hbefore : s.held start.nextHandle = 1 ↔ LeavesRunning start.nextHandle future earlier :=
      start.held_eq_one future earlier
    have hafter : (s.perform op).store.held start.nextHandle = 1 ↔
        LeavesRunning start.nextHandle future (earlier ++ [op]) := by
      rw [← start.held_eq_one, ← List.cons_append, after_append]
      rfl
    have hle := s.held_le_one start.nextHandle
    refine ⟨by omega, ?_⟩
    constructor
    · intro hone
      have hruns := hbefore.1 (by omega)
      refine ⟨hruns, (ends_iff hruns).2 fun hstill => ?_⟩
      have := hafter.2 hstill
      omega
    · rintro ⟨hruns, hends⟩
      have hgone := mt hafter.1 ((ends_iff hruns).1 hends)
      have := hbefore.2 hruns
      have hle' := (s.perform op).store.held_le_one start.nextHandle
      omega

/-- In every run, handles are issued in order and are live until they are freed, and each
future is used as the law says: in all it is dropped once if its task has been ended, and
not at all while that is running. -/
theorem usage_law :
    (∀ ops, (({} : Store).issued ops).Pairwise (· < ·)) ∧
    (∀ ops handle, (({} : Store).after ops).isLive handle = true ↔
      ∃ before future later, ops = before ++ .spawn future :: later ∧
        (({} : Store).after before).nextHandle = handle ∧ .free handle ∉ later) ∧
    ∀ (before : List Operation) (future : Future TaskResult) (later : List Operation),
      let start := ({} : Store).after before
      let trace := ({} : Store).traceOf (before ++ .spawn future :: later)
      start.UsageLaw future later ∧
        (LeavesRunning start.nextHandle future later → trace.drops start.nextHandle = 0) ∧
        (¬ LeavesRunning start.nextHandle future later → trace.drops start.nextHandle = 1) := by
  refine ⟨fun ops => ?_, fun ops handle => isLive_after, fun before future later => ?_⟩
  · rw [issued_eq]
    exact List.pairwise_lt_range'
  · intro start trace
    have hbefore : ((({} : Store).traceOf before).drops start.nextHandle) = 0 := by
      have hnone := drops_traceOf (h := start.nextHandle) {} before (.inr le_rfl)
      rw [held_of_none (s := {}) rfl] at hnone
      omega
    have hspawned : (start.spawn future).store.held start.nextHandle = 1 :=
      (start.held_eq_one future []).2 Fate.leavesRunning_nil
    have hlater := drops_traceOf (h := start.nextHandle) (start.spawn future).store later
      (.inl (Nat.lt_succ_self _))
    have htrace : trace = ({} : Store).traceOf before ++ (start.spawn future).store.traceOf later :=
      traceOf_append {} before (.spawn future :: later)
    have hheld := start.held_eq_one future later
    have hle := (start.after (.spawn future :: later)).held_le_one start.nextHandle
    have hafter : (start.spawn future).store.after later =
      start.after (.spawn future :: later) := rfl
    rw [hafter, hspawned] at hlater
    refine ⟨start.usageLaw (sound_empty.after before) future later, fun hruns => ?_,
      fun hends => ?_⟩
    · rw [htrace, Trace.drops_append, hbefore]
      have := hheld.2 hruns
      omega
    · rw [htrace, Trace.drops_append, hbefore]
      have := mt hheld.1 hends
      omega

end Store
end Task
end CoreBridge
