import CoreBridge.Proofs.Task.Fate
import CoreBridge.Proofs.Task.Private

/-!
# What is asked of a future

A store in which other futures stand for those that it holds (`Store.recast`) goes
through an operation as the store itself does, if they behave alike where the operation
asks them: the future of a task that runs is asked in a poll of the task, and as it is
dropped by what ends the task (`recast_perform`). So a run asks nothing else of a future
(`recast_run`).
-/
namespace CoreBridge

namespace Table

variable {κ α β : Type} [DecidableEq κ]

/-- The table with every value replaced. -/
def mapValues (f : κ → α → β) (t : Table κ α) : Table κ β :=
  ⟨t.entries.map fun e => (e.1, f e.1 e.2)⟩

variable (f : κ → α → β) (t : Table κ α) (key : κ)

@[simp] theorem get?_mapValues : (t.mapValues f).get? key = (t.get? key).map (f key) := by
  obtain ⟨entries⟩ := t
  simp only [mapValues, get?]
  induction entries with
  | nil => rfl
  | cons e entries ih =>
    obtain ⟨k, a⟩ := e
    by_cases hk : k = key
    · subst hk
      simp [lookup]
    · simpa [lookup, hk] using ih

theorem mapValues_set (a : α) : (t.set key a).mapValues f = (t.mapValues f).set key (f key a) := by
  obtain ⟨entries⟩ := t
  simp only [mapValues, set, mk.injEq]
  induction entries with
  | nil => rfl
  | cons e entries ih =>
    obtain ⟨k, b⟩ := e
    by_cases hk : k = key
    · subst hk
      simp [place]
    · simpa [place, hk] using ih

theorem mapValues_erase : (t.erase key).mapValues f = (t.mapValues f).erase key := by
  simp only [mapValues, erase, List.filter_map]
  rfl

theorem key_ne_of_get? {t : Table κ α} {key : κ} (h : t.get? key = none) {e : κ × α}
    (he : e ∈ t.entries) : e.1 ≠ key := by
  obtain ⟨entries⟩ := t
  simp only [get?] at h he
  induction entries with
  | nil => cases he
  | cons first entries ih =>
    obtain ⟨k, a⟩ := first
    rw [lookup] at h
    split at h
    · cases h
    · rename_i hk
      obtain rfl | hrest := List.mem_cons.1 he
      · exact hk
      · exact ih h hrest

omit [DecidableEq κ] in
/-- What leaves the values as they are leaves the table as it is. -/
theorem mapValues_eq_self {f : κ → α → α} {t : Table κ α} (h : ∀ e ∈ t.entries, f e.1 e.2 = e.2) :
    t.mapValues f = t := by
  obtain ⟨entries⟩ := t
  have hmap : entries.map (fun e => (e.1, f e.1 e.2)) = entries.map id :=
    List.map_congr_left fun e he => Prod.ext rfl (h e he)
  rw [mapValues, hmap, List.map_id]

end Table

namespace Task

/-- The task with another future in place of its own. -/
def LiveTask.recast (f : Future TaskResult → Future TaskResult) (task : LiveTask) : LiveTask :=
  { task with future := task.future.map f }

/-- The store with other futures in place of those of its tasks. -/
def Store.recast (φ : Nat → Future TaskResult → Future TaskResult) (s : Store) : Store :=
  { s with tasks := s.tasks.mapValues fun handle task => task.recast (φ handle) }

def Step.recast {α : Type} (φ : Nat → Future TaskResult → Future TaskResult) (step : Step α) :
    Step α := ⟨step.value, step.store.recast φ, step.trace⟩

/-- Whether `g` does in its `n`th poll what `future` does, and as it is dropped if that
poll ends it. -/
structure Future.AlikeInPoll (future g : Future TaskResult) (n : Nat) : Prop where
  turn : g.onPoll n = future.onPoll n
  drop : (future.onPoll n).ending.result?.isSome = true → g.onDrop (n + 1) = future.onDrop (n + 1)

namespace Store

variable (φ : Nat → Future TaskResult → Future TaskResult) (s : Store) (handle waker : Nat)

theorem recast_wakeWith (result : Int) :
    (s.recast φ).wakeWith waker result = (s.wakeWith waker result).recast φ := by
  have hwakers : (s.recast φ).wakers = s.wakers := rfl
  unfold wakeWith
  rw [hwakers]
  cases s.wakers[waker]? <;> rfl

theorem recast_wakeAll (own : Array Nat) (refs : List WakerRef) :
    (s.recast φ).wakeAll own refs = (s.wakeAll own refs).recast φ := by
  induction refs generalizing s with
  | nil => rfl
  | cons ref refs ih =>
    unfold wakeAll
    cases ref.number? own with
    | none => simp only [ih, Step.recast]
    | some waker => simp only [wake, recast_wakeWith, Step.recast, ih]

theorem recast_disarm? (waker : Option Nat) :
    (s.recast φ).disarm? waker = (s.disarm? waker).recast φ := by
  cases waker <;> rfl

theorem recast_setTask (task : LiveTask) :
    (s.recast φ).setTask handle (task.recast (φ handle)) = (s.setTask handle task).recast φ := by
  simp only [setTask, recast, Table.mapValues_set]

/-- Dropping a future asks it which wakers it wakes then. -/
theorem recast_dropFuture? (own : Array Nat) (future : Option (Future TaskResult))
    (h : ∀ f, future = some f → (φ handle f).onDrop own.size = f.onDrop own.size) :
    (s.recast φ).dropFuture? handle own (future.map (φ handle)) =
      (s.dropFuture? handle own future).recast φ := by
  cases future with
  | none => rfl
  | some f =>
    simp only [Option.map_some, dropFuture?, dropFuture, h f rfl, recast_wakeAll]
    rfl

theorem recast_suspend (task : LiveTask) :
    (s.recast φ).suspend handle waker (task.recast (φ handle)) =
      (s.suspend handle waker task).recast φ := by
  have hset := recast_setTask φ s handle { task with pending := some waker }
  rw [suspend_eq, suspend_eq]
  exact congrArg (fun t : Store => (⟨pollPending, t.touch waker Waker.arm, _⟩ : Step Int)) hset

theorem recast_finish (task : LiveTask) (f : Future TaskResult) (result : TaskResult)
    (h : (φ handle f).onDrop task.wakers.size = f.onDrop task.wakers.size) :
    (s.recast φ).finish handle waker (task.recast (φ handle)) (φ handle f) result =
      (s.finish handle waker task f result).recast φ := by
  have hset := recast_setTask φ (s.disarm waker) handle
    { task with future := none, output := some result }
  have hdrop := recast_dropFuture? φ ((s.disarm waker).setTask handle
    { task with future := none, output := some result }) handle task.wakers (some f)
    fun g hg => by
      rw [← Option.some.inj hg]
      exact h
  rw [← hset] at hdrop
  exact congrArg (fun step : Step Unit => (⟨pollReady, step.store, step.trace⟩ : Step Int)) hdrop

theorem recast_settle (task : LiveTask) (f : Future TaskResult) (ending : Ending TaskResult)
    (h : ending.result?.isSome = true →
      (φ handle f).onDrop task.wakers.size = f.onDrop task.wakers.size) :
    (s.recast φ).settle handle waker (task.recast (φ handle)) (φ handle f) ending =
      (s.settle handle waker task f ending).recast φ := by
  cases ending with
  | pending => exact recast_suspend φ s handle waker task
  | ready result => exact recast_finish φ s handle waker task f result (h rfl)
  | panicked panic => exact recast_finish φ s handle waker task f _ (h rfl)

theorem recast_pollFuture (data : Nat) (task : LiveTask) (f : Future TaskResult)
    (h : f.AlikeInPoll (φ handle f) task.wakers.size) :
    (s.recast φ).pollFuture handle data (task.recast (φ handle)) (φ handle f) =
      (s.pollFuture handle data task f).recast φ := by
  have hwakers : (task.recast (φ handle)).wakers = task.wakers := rfl
  have hsize : (s.recast φ).wakers.size = s.wakers.size := rfl
  have hmake (handsOn : Bool) : (s.recast φ).withWaker data handsOn =
      (s.withWaker data handsOn).recast φ := rfl
  unfold pollFuture
  rw [runTurn_eq, runTurn_eq]
  simp only [hwakers, h.turn, hsize, hmake, recast_wakeAll]
  generalize hturn : f.onPoll task.wakers.size = turn at *
  have hsettle := recast_settle φ
    ((s.withWaker data turn.handsOn).wakeAll (task.wakers.push s.wakers.size) turn.wakes).store
    handle s.wakers.size { task with wakers := task.wakers.push s.wakers.size } f turn.ending
    fun hends => by
      rw [Array.size_push]
      exact h.drop (by rw [hturn]; exact hends)
  exact congrArg
    (fun step : Step Int => (⟨step.value, step.store, _ ++ step.trace⟩ : Step Int)) hsettle

theorem get?_recast : (s.recast φ).tasks.get? handle =
    (s.tasks.get? handle).map (·.recast (φ handle)) :=
  Table.get?_mapValues _ s.tasks handle

variable {s handle}

theorem get?_recast_none (h : s.tasks.get? handle = none) :
    (s.recast φ).tasks.get? handle = none := by
  rw [get?_recast, h, Option.map_none]

theorem get?_recast_some {task : LiveTask} (h : s.tasks.get? handle = some task) :
    (s.recast φ).tasks.get? handle = some (task.recast (φ handle)) := by
  rw [get?_recast, h, Option.map_some]

/-- Whether the futures put in place behave as those that they stand for where the
operation asks them. -/
def Alike (φ : Nat → Future TaskResult → Future TaskResult) (s : Store) : Operation → Prop
  | .spawn future => φ s.nextHandle future = future
  | .poll handle _ => ∀ task, s.tasks.get? handle = some task →
    ∀ f, task.runnable? = some f → f.AlikeInPoll (φ handle f) task.wakers.size
  | .cancel handle | .free handle => ∀ task, s.tasks.get? handle = some task →
    ∀ f, task.future = some f → (φ handle f).onDrop task.wakers.size = f.onDrop task.wakers.size
  | .complete _ _ | .wake _ => True

variable {φ}

theorem recast_poll {data : Nat} (h : s.Alike φ (.poll handle data)) :
    (s.recast φ).poll handle data = (s.poll handle data).recast φ := by
  cases htask : s.tasks.get? handle with
  | none =>
    have hrecast := get?_recast_none φ htask
    rw [poll_unknown htask, poll_unknown hrecast]
    rfl
  | some task =>
    have hrecast := get?_recast_some φ htask
    have hrun : (task.recast (φ handle)).runnable? = task.runnable?.map (φ handle) := by
      obtain ⟨future, wakers, output, cancelled, pending⟩ := task
      cases cancelled <;> cases output <;> rfl
    have hsupersede : (s.recast φ).supersede handle (task.recast (φ handle)) =
        (s.supersede handle task).recast φ := by
      have hset := recast_setTask φ (s.disarm? task.pending) handle { task with pending := none }
      rw [← recast_disarm?] at hset
      exact hset
    rw [poll_live htask, poll_live hrecast, hrun, hsupersede]
    cases hfuture : task.runnable? with
    | none => rfl
    | some f =>
      exact recast_pollFuture φ _ handle data { task with pending := none } f
        (h task htask f hfuture)

theorem recast_cancel (h : s.Alike φ (.cancel handle)) :
    (s.recast φ).cancel handle = (s.cancel handle).recast φ := by
  cases htask : s.tasks.get? handle with
  | none =>
    have hrecast := get?_recast_none φ htask
    simp only [cancel, htask, hrecast]
    rfl
  | some task =>
    have hrecast := get?_recast_some φ htask
    have hset := recast_setTask φ s handle task.forgotten
    have hdrop := recast_dropFuture? φ (s.setTask handle task.forgotten) handle task.wakers
      task.future (h task htask)
    rw [← hset] at hdrop
    have hrelease (s : Store) (p : Option Nat) :
        (s.recast φ).release p = (s.release p).recast φ := by
      cases p with
      | none => rfl
      | some w => exact recast_wakeWith φ s w pollReady
    rw [cancel_live htask, cancel_live hrecast]
    refine (congrArg (fun dropped : Step Unit => (⟨(), (dropped.store.release task.pending).store,
      dropped.trace ++ (dropped.store.release task.pending).trace ++
        [.log .debug s!"Cancelled task {handle}"]⟩ : Step Unit)) hdrop).trans ?_
    simp only [Step.recast, hrelease]
    rfl

theorem recast_free (h : s.Alike φ (.free handle)) :
    (s.recast φ).free handle = (s.free handle).recast φ := by
  cases htask : s.tasks.get? handle with
  | none =>
    have hrecast := get?_recast_none φ htask
    simp only [free, htask, hrecast]
    rfl
  | some task =>
    have hrecast := get?_recast_some φ htask
    have herase : ({ s.recast φ with tasks := (s.recast φ).tasks.erase handle } : Store) =
        ({ s with tasks := s.tasks.erase handle } : Store).recast φ := by
      simp only [recast, Table.mapValues_erase]
    have hdrop := recast_dropFuture? φ
      (({ s with tasks := s.tasks.erase handle } : Store).disarm? task.pending) handle task.wakers
      task.future (h task htask)
    rw [← recast_disarm?] at hdrop
    simp only [free, htask, hrecast, herase]
    exact hdrop

theorem recast_complete (s : Store) (flavour : Flavour) : (s.recast φ).complete flavour handle =
    ((s.complete flavour handle).1, (s.complete flavour handle).2.recast φ) := by
  have htake : (s.recast φ).takeOutput handle =
      ((s.takeOutput handle).1, (s.takeOutput handle).2.recast φ) := by
    unfold takeOutput
    cases htask : s.tasks.get? handle with
    | none =>
      rw [get?_recast_none φ htask]
    | some task =>
      rw [get?_recast_some φ htask]
      have hset := recast_setTask φ s handle { task with output := none }
      obtain ⟨future, wakers, output, cancelled, pending⟩ := task
      cases cancelled with
      | true => rfl
      | false =>
        cases output with
        | none => rfl
        | some result =>
          rcases result with (bytes | message) | value <;> exact Prod.ext rfl hset
  unfold complete
  rw [htake]
  rcases s.takeOutput handle with ⟨collected, taken⟩
  cases collected with
  | value v =>
    dsimp only
    split_ifs <;> rfl
  | _ => rfl

/-- An operation asks nothing of the futures but in a poll that runs one of them, and as
it drops one. -/
theorem recast_perform {op : Operation} (h : s.Alike φ op) :
    (s.recast φ).perform op = (s.perform op).recast φ := by
  cases op with
  | spawn future =>
    have hset := recast_setTask φ s s.nextHandle { future := some future }
    have hnew : LiveTask.recast (φ s.nextHandle) { future := some future } =
        { future := some future } := by
      rw [LiveTask.recast, Option.map_some, h]
    rw [hnew] at hset
    exact congrArg (fun t : Store =>
      (⟨none, { t with nextHandle := s.nextHandle + 1 }, []⟩ : Step (Option Int))) hset
  | poll handle data =>
    simp only [perform, recast_poll h]
    rfl
  | cancel handle =>
    simp only [perform, recast_cancel h]
    rfl
  | free handle =>
    simp only [perform, recast_free h]
    rfl
  | complete flavour handle =>
    simp only [perform, recast_complete]
    rfl
  | wake waker =>
    simp only [perform, wake, recast_wakeWith]
    rfl

end Store

/-! ## Over a run -/

/-- A task that has a future runs it. -/
theorem Fate.Keeps.running_of_future {fate : Fate} {task : LiveTask} {f : Future TaskResult}
    (h : fate.Keeps (some task)) (hf : task.future = some f) :
    fate = running f task.wakers.size := by
  cases fate with
  | running future n =>
    obtain ⟨_, heq, hruns⟩ := h
    obtain rfl := Option.some.inj heq
    obtain rfl := Option.some.inj (hruns.future.symm.trans hf)
    rw [hruns.polls]
  | ended result =>
    obtain ⟨_, heq, hrests⟩ := h
    obtain rfl := Option.some.inj heq
    cases hrests.future.symm.trans hf
  | collected =>
    obtain ⟨_, heq, hrests⟩ := h
    obtain rfl := Option.some.inj heq
    cases hrests.future.symm.trans hf
  | cancelled =>
    obtain ⟨_, heq⟩ := h
    obtain rfl := Option.some.inj heq
    cases hf
  | freed => cases h

/-- Puts `g` in place of the future of one task. -/
def replacing (handle : Nat) (g : Future TaskResult) (h : Nat) (f : Future TaskResult) :
    Future TaskResult :=
  if h = handle then g else f

/-- Whether `g` behaves as `future`, of which `n` polls have been made, where the operation
asks the future of a running task. -/
def AlikeIn (handle : Nat) (future g : Future TaskResult) (n : Nat) : Operation → Prop
  | .poll h _ => h = handle → future.AlikeInPoll g n
  | .cancel h | .free h => h = handle → g.onDrop n = future.onDrop n
  | .spawn _ | .complete _ _ | .wake _ => True

/-- Whether `g` behaves as `future` where a run asks it while its task is running. -/
def AlikeAlong (handle : Nat) (future g : Future TaskResult) (ops : List Operation) : Prop :=
  ∀ earlier op rest, ops = earlier ++ op :: rest → LeavesRunning handle future earlier →
    AlikeIn handle future g (polls handle earlier) op

namespace Store

variable {s : Store} {handle : Nat} {future g : Future TaskResult} {done : List Operation}

theorem alike_of_keeps (h : (Fate.ofRun handle future done).Keeps (s.tasks.get? handle))
    (hissued : handle < s.nextHandle) {op : Operation}
    (hop : LeavesRunning handle future done → AlikeIn handle future g (polls handle done) op) :
    s.Alike (replacing handle g) op := by
  have hruns {task : LiveTask} {f : Future TaskResult} (htask : s.tasks.get? handle = some task)
      (hf : task.future = some f) : f = future ∧ task.wakers.size = polls handle done ∧
        LeavesRunning handle future done := by
    rw [htask] at h
    exact Fate.ofRun_eq_running.1 (h.running_of_future hf)
  have hdrop (h' : Nat) {task : LiveTask} {f : Future TaskResult}
      (htask : s.tasks.get? h' = some task) (hf : task.future = some f)
      (halike : h' = handle → LeavesRunning handle future done →
        g.onDrop (polls handle done) = future.onDrop (polls handle done)) :
      (replacing handle g h' f).onDrop task.wakers.size = f.onDrop task.wakers.size := by
    by_cases hh : h' = handle
    · subst hh
      obtain ⟨rfl, hsize, hleaves⟩ := hruns htask hf
      rw [replacing, if_pos rfl, hsize]
      exact halike rfl hleaves
    · rw [replacing, if_neg hh]
  cases op with
  | spawn f =>
    have hne : s.nextHandle ≠ handle := by omega
    exact if_neg hne
  | poll h' data =>
    intro task htask f hrun
    by_cases hh : h' = handle
    · subst hh
      obtain ⟨rfl, hsize, hleaves⟩ := hruns htask (LiveTask.future_of_runnable? hrun)
      rw [replacing, if_pos rfl, hsize]
      exact hop hleaves rfl
    · rw [replacing, if_neg hh]
      exact ⟨rfl, fun _ => rfl⟩
  | cancel h' => exact fun task htask f hf => hdrop h' htask hf fun hh hleaves => hop hleaves hh
  | free h' => exact fun task htask f hf => hdrop h' htask hf fun hh hleaves => hop hleaves hh
  | complete flavour h' => trivial
  | wake waker => trivial

/-- A run in which `g` stands for the future of a task goes as it does without. -/
theorem recast_after (h : (Fate.ofRun handle future done).Keeps (s.tasks.get? handle))
    (hissued : handle < s.nextHandle) {ops : List Operation}
    (halike : AlikeAlong handle future g (done ++ ops)) :
    (s.recast (replacing handle g)).after ops = (s.after ops).recast (replacing handle g) ∧
      (s.recast (replacing handle g)).traceOf ops = s.traceOf ops := by
  induction ops generalizing s done with
  | nil => exact ⟨rfl, rfl⟩
  | cons op ops ih =>
    have hstep := recast_perform (alike_of_keeps h hissued (halike done op ops rfl))
    have hkeeps : (Fate.ofRun handle future (done ++ [op])).Keeps
        ((s.perform op).store.tasks.get? handle) := by
      rw [Fate.ofRun_concat]
      exact h.perform hissued op
    obtain ⟨hafter, htrace⟩ := ih hkeeps
      (Nat.lt_of_lt_of_le hissued (s.nextHandle_le_perform op)) (by simpa using halike)
    rw [after, traceOf, hstep]
    exact ⟨hafter, congrArg ((s.perform op).trace ++ ·) htrace⟩

/-- A run that spawns `g` goes as one that spawns `future` goes, and shows the same, if
they behave alike where it asks them. -/
theorem recast_run (hs : s.Sound) {ops : List Operation}
    (halike : AlikeAlong s.nextHandle future g ops) :
    s.after (.spawn g :: ops) =
        (s.after (.spawn future :: ops)).recast (replacing s.nextHandle g) ∧
      s.traceOf (.spawn g :: ops) = s.traceOf (.spawn future :: ops) := by
  have hself : s.recast (replacing s.nextHandle g) = s := by
    have htasks : s.tasks.mapValues (fun handle task =>
        task.recast (replacing s.nextHandle g handle)) = s.tasks := by
      refine Table.mapValues_eq_self fun e he => ?_
      have hne : e.1 ≠ s.nextHandle := Table.key_ne_of_get? (hs.unissued _ le_rfl) he
      have hid : replacing s.nextHandle g e.1 = id := funext fun _ => if_neg hne
      rw [LiveTask.recast, hid, Option.map_id_fun, id]
    rw [recast, htasks]
  have hspawn : (s.spawn g).store =
      (s.spawn future).store.recast (replacing s.nextHandle g) := by
    have hset := recast_setTask (replacing s.nextHandle g) s s.nextHandle { future := some future }
    rw [hself, LiveTask.recast, Option.map_some, replacing, if_pos rfl] at hset
    exact congrArg (fun t : Store => { t with nextHandle := s.nextHandle + 1 }) hset
  have hkeeps : (Fate.ofRun s.nextHandle future []).Keeps
      ((s.spawn future).store.tasks.get? s.nextHandle) := s.keeps_ofRun future []
  obtain ⟨hafter, htrace⟩ := recast_after hkeeps (Nat.lt_succ_self s.nextHandle) halike
  rw [← hspawn] at hafter htrace
  exact ⟨hafter, congrArg ([] ++ ·) htrace⟩

end Store
end Task
end CoreBridge
