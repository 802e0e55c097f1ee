import CoreBridge.Proofs.Task.Others

/-!
# Futures that keep to themselves

A future is private if the wakers that it wakes are those of its own polls. An
operation on its task then wakes no others (`mem_of_wakesOf`), and the future alone
says whether the waker of its last poll is among those it wakes (`named_iff`).
-/
namespace CoreBridge.Task

/-- Whether the reference names the waker of one of the future's own polls. -/
def WakerRef.IsOwn (ref : WakerRef) : Prop := ∃ poll, ref = .own poll

/-- Whether a future wakes only the wakers of its own polls. -/
structure Future.IsPrivate {α : Type} (future : Future α) : Prop where
  onPoll : ∀ n, ∀ ref ∈ (future.onPoll n).wakes, ref.IsOwn
  onDrop : ∀ n, ∀ ref ∈ future.onDrop n, ref.IsOwn

namespace WakerRef

variable {own : Array Nat} {refs : List WakerRef} {waker i : Nat}

theorem mem_of_named (hrefs : ∀ ref ∈ refs, ref.IsOwn) (h : waker ∈ named own refs) :
    waker ∈ own := by
  obtain ⟨ref, href, hnumber⟩ := List.mem_filterMap.1 h
  obtain ⟨poll, rfl⟩ := hrefs ref href
  exact Array.mem_of_getElem? hnumber

theorem named_iff (hrefs : ∀ ref ∈ refs, ref.IsOwn) (hown : own.toList.Nodup)
    (hi : own[i]? = some waker) : waker ∈ named own refs ↔ .own i ∈ refs := by
  constructor
  · intro h
    obtain ⟨ref, href, hnumber⟩ := List.mem_filterMap.1 h
    obtain ⟨j, rfl⟩ := hrefs ref href
    have hj : own[j]? = some waker := hnumber
    obtain ⟨hlt, _⟩ := Array.getElem?_eq_some_iff.1 hi
    have hij : i = j := by
      rw [← List.getElem?_inj hlt hown, Array.getElem?_toList, Array.getElem?_toList, hi, hj]
    rwa [hij]
  · intro h
    exact List.mem_filterMap.2 ⟨.own i, h, hi⟩

end WakerRef

theorem Ending.eq_pending {ending : Ending TaskResult} (h : ending.result? = none) :
    ending = .pending := by
  cases ending with
  | pending => rfl
  | ready result => cases h
  | panicked panic => cases h

theorem nodup_push {own : Array Nat} {w : Nat} (hown : own.toList.Nodup) (hw : ∀ v ∈ own, v < w) :
    (own.push w).toList.Nodup := by
  rw [Array.toList_push, List.nodup_append]
  refine ⟨hown, List.nodup_singleton w, fun v hv u hu => ?_⟩
  obtain rfl := List.mem_singleton.1 hu
  exact Nat.ne_of_lt (hw v (Array.mem_toList_iff.1 hv))

namespace LiveTask

/-- Whether a task had wakers `own` in the polls of its future, which is `future`
unless it is gone. -/
structure Owns (future : Future TaskResult) (own : Array Nat) (task : LiveTask) : Prop where
  wakers : task.wakers = own
  only : ∀ f, task.future = some f → f = future

/-- Whether a task still runs its future, of which `own.size` polls have been made, or
has been cancelled. -/
structure Serves (future : Future TaskResult) (own : Array Nat) (cancelled : Bool)
    (task : LiveTask) : Prop extends Owns future own task where
  state : if cancelled then task.cancelled = true else task.Runs future own.size

/-- Whether a task has come to an outcome, which is a result unless it was cancelled. -/
structure Ends (future : Future TaskResult) (own : Array Nat) (outcome : Option TaskResult)
    (task : LiveTask) : Prop extends Owns future own task where
  state : match outcome with
    | none => task.cancelled = true
    | some result => task.Yields result

variable {future : Future TaskResult} {own : Array Nat} {cancelled : Bool} {task : LiveTask}

theorem future_of_runnable? {f : Future TaskResult} (h : task.runnable? = some f) :
    task.future = some f := by
  unfold runnable? at h
  split at h
  · cases h
  · exact h

theorem serves_new (future : Future TaskResult) :
    Serves future #[] false { future := some future } where
  wakers := rfl
  only _ h := (Option.some.inj h).symm
  state := runs_new future

theorem Serves.ends (h : task.Serves future own true) : task.Ends future own none where
  toOwns := h.toOwns
  state := h.state

theorem Serves.forgotten (h : task.Serves future own cancelled) :
    task.forgotten.Serves future own true where
  wakers := h.wakers
  only _ hf := by cases hf
  state := rfl

end LiveTask

namespace Store

variable {s : Store} {handle data w : Nat} {x : Waker} {task : LiveTask}
  {future : Future TaskResult} {own : Array Nat} {op : Operation}

theorem mem_of_wakesOfDrop (h : task.Owns future own) (hprivate : future.IsPrivate)
    (hw : w ∈ wakesOfDrop task) : w ∈ own := by
  unfold wakesOfDrop at hw
  cases hfuture : task.future with
  | none =>
    rw [hfuture] at hw
    cases hw
  | some f =>
    obtain rfl := h.only f hfuture
    rw [hfuture, h.wakers] at hw
    exact WakerRef.mem_of_named (hprivate.onDrop _) hw

theorem mem_of_wakesOfPoll (h : task.Owns future own) (hprivate : future.IsPrivate)
    (hw : w ∈ s.wakesOfPoll task future) : w ∈ own ∨ w = s.wakers.size := by
  rw [← Array.mem_push, ← h.wakers]
  obtain hturn | hending := List.mem_append.1 hw
  · exact WakerRef.mem_of_named (hprivate.onPoll _) hturn
  · unfold wakesOfEnding at hending
    split at hending
    · cases hending
    · exact WakerRef.mem_of_named (hprivate.onDrop _) hending
    · exact WakerRef.mem_of_named (hprivate.onDrop _) hending

/-- Whether a task, unless it has been freed, had wakers `own` in the polls of its future. -/
def Owns (s : Store) (handle : Nat) (future : Future TaskResult) (own : Array Nat) : Prop :=
  ∀ task, s.tasks.get? handle = some task → task.Owns future own

theorem owns_of_live (htask : s.tasks.get? handle = some task) (h : task.Owns future own) :
    s.Owns handle future own := by
  intro live hlive
  obtain rfl := Option.some.inj (htask.symm.trans hlive)
  exact h

/-- What is done with a task whose future is private wakes only the wakers of its polls. -/
theorem Owns.mem_of_wakesOf (hown : s.Owns handle future own)
    (hprivate : future.IsPrivate) (hop : op.target? = some handle) (hw : w ∈ s.wakesOf op) :
    w ∈ own ∨ w = s.wakers.size := by
  have hdrop (hw : w ∈ s.wakesOf (.cancel handle)) : w ∈ own := by
    cases htask : s.tasks.get? handle with
    | none =>
      simp only [wakesOf, htask] at hw
      cases hw
    | some task =>
      simp only [wakesOf, htask] at hw
      exact mem_of_wakesOfDrop (hown task htask) hprivate hw
  cases op with
  | poll h' data =>
    obtain rfl := Option.some.inj hop
    cases htask : s.tasks.get? h' with
    | none =>
      simp only [wakesOf, htask] at hw
      cases hw
    | some task =>
      rw [wakesOf_poll htask] at hw
      cases hrun : task.runnable? with
      | none =>
        rw [hrun] at hw
        cases hw
      | some f =>
        rw [hrun] at hw
        obtain rfl := (hown task htask).only f (LiveTask.future_of_runnable? hrun)
        exact mem_of_wakesOfPoll (hown task htask) hprivate hw
  | cancel h' =>
    obtain rfl := Option.some.inj hop
    exact .inl (hdrop hw)
  | free h' =>
    obtain rfl := Option.some.inj hop
    exact .inl (hdrop hw)
  | complete flavour h' => cases hw
  | spawn future => cases hop
  | wake v => cases hop

/-- Cancelling a task that owes a continuation invokes it; the future, as it is dropped,
may have woken the waker before. -/
theorem Owed.cancelled (h : s.Owed handle w x) : (s.perform (.cancel handle)).trace.firings x.data =
    [if w ∈ s.wakesOf (.cancel handle) then pollMaybeReady else pollReady] := by
  have hop (task : Nat) : Operation.cancel handle ≠ .poll task x.data := fun heq => by cases heq
  obtain ⟨_, hfire⟩ := h.marked.perform hop
  have harmed : x.isArmed = true := by simp [Waker.isArmed, h.armed]
  have hrelease : s.releasedBy (.cancel handle) = some w := (h.releasedBy_iff _).2 rfl
  have hdisarm : s.disarmedBy (.cancel handle) ≠ some w := fun heq => by cases heq
  by_cases hwoken : w ∈ s.wakesOf (.cancel handle)
  · simpa [hrelease, hdisarm, hwoken, harmed] using hfire
  · simpa [hrelease, hdisarm, hwoken, harmed] using hfire

/-- What is done with a task but for polls leaves it the wakers that it had. -/
theorem Owns.perform (h : s.Owns handle future own) (hop : op.target? = some handle)
    (hpolls : ∀ data, op ≠ .poll handle data) :
    (s.perform op).store.Owns handle future own := by
  intro live hlive
  cases op with
  | poll h' data =>
    obtain rfl := Option.some.inj hop
    exact absurd rfl (hpolls data)
  | cancel h' =>
    obtain rfl := Option.some.inj hop
    simp only [Store.perform, Step.map, get?_cancel, if_true] at hlive
    obtain ⟨task, htask, rfl⟩ := Option.map_eq_some_iff.1 hlive
    exact ⟨(h task htask).wakers, fun _ hf => by cases hf⟩
  | free h' =>
    obtain rfl := Option.some.inj hop
    simp only [Store.perform, Step.map, get?_free, if_true] at hlive
    cases hlive
  | complete flavour h' =>
    obtain rfl := Option.some.inj hop
    simp only [Store.perform] at hlive
    obtain hsame | ⟨task, htask, hset⟩ := s.complete_store flavour h'
    · rw [hsame] at hlive
      exact h live hlive
    · simp only [hset, setTask, Table.get?_set, if_true] at hlive
      obtain rfl := Option.some.inj hlive
      exact ⟨(h task htask).wakers, (h task htask).only⟩
  | spawn future => cases hop
  | wake v => cases hop

/-- Cancelling a task wakes the waker of its last poll if the future does so by name. -/
theorem mem_wakesOf_cancel (htask : s.tasks.get? handle = some task)
    (h : task.Serves future own false) (hprivate : future.IsPrivate) (hown : own.toList.Nodup)
    (hlast : own.back? = some w) :
    w ∈ s.wakesOf (.cancel handle) ↔ .own (own.size - 1) ∈ future.onDrop own.size := by
  have hruns : task.Runs future own.size := h.state
  rw [Array.back?_eq_getElem?] at hlast
  rw [← WakerRef.named_iff (hprivate.onDrop own.size) hown hlast]
  simp only [wakesOf, htask, wakesOfDrop, hruns.future, h.wakers]

/-! ## Polls of a task -/

/-- A poll of a task that runs its future makes one waker. -/
theorem size_poll (htask : s.tasks.get? handle = some task)
    (hrun : task.runnable? = some future) :
    (s.poll handle data).store.wakers.size = s.wakers.size + 1 := by
  rw [poll_live htask, hrun, ← size_bare]
  simp only [bare_pollFuture, bare_supersede, setTask, withWaker, Array.size_push, size_bare]

theorem polled_cancelled (h : task.Serves future own true) :
    (s.polled task).Ends future own none := by
  have hcancelled : task.cancelled = true := h.state
  have hpolled : s.polled task = { task with pending := none } := by
    simp [polled, LiveTask.runnable?, hcancelled]
  rw [hpolled]
  exact ⟨⟨h.wakers, h.only⟩, hcancelled⟩

/-- The future of a task that has been polled is as before or gone, and the poll had a
waker of its own. -/
theorem owns_polled (h : task.Serves future own false) :
    (s.polled task).Owns future (own.push s.wakers.size) := by
  have hruns : task.Runs future own.size := h.state
  simp only [polled, hruns.runnable?, h.wakers]
  cases (future.onPoll own.size).ending with
  | pending => exact ⟨rfl, h.only⟩
  | ready result => exact ⟨rfl, fun _ hf => by cases hf⟩
  | panicked panic => exact ⟨rfl, fun _ hf => by cases hf⟩

/-- A poll that is left pending wakes its own waker if the future does so by name. -/
theorem size_mem_wakesOf_poll (htask : s.tasks.get? handle = some task)
    (h : task.Serves future own false) (hprivate : future.IsPrivate) (hown : own.toList.Nodup)
    (hmade : ∀ v ∈ own, v < s.wakers.size) (hpends : (future.onPoll own.size).ending = .pending) :
    s.wakers.size ∈ s.wakesOf (.poll handle data) ↔
      .own own.size ∈ (future.onPoll own.size).wakes := by
  have hruns : task.Runs future own.size := h.state
  have hlast : (own.push s.wakers.size)[own.size]? = some s.wakers.size := Array.getElem?_push_size
  rw [wakesOf_poll htask, hruns.runnable?,
    ← WakerRef.named_iff (hprivate.onPoll own.size) (nodup_push hown hmade) hlast]
  simp only [wakesOfPoll, h.wakers, hpends, wakesOfEnding, List.append_nil]

end Store
end CoreBridge.Task
