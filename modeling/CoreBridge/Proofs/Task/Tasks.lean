import CoreBridge.Proofs.Task.Wakers

/-!
# The tasks through an operation

A wake changes nothing but the states of wakers, so what an operation does to
the tasks is read off the store with those states forgotten (`bare`). From it
come the evolution of the pending wakers (`pending?_perform`) and what every
store that a run reaches satisfies (`Sound`): no task stands under a handle
that is still to be issued, and every pending waker has been made.
-/
namespace CoreBridge.Task.Store

/-- The store with the states of its wakers forgotten. -/
def bare (s : Store) : Store :=
  { s with wakers := s.wakers.map fun w => { w with state := .polling } }

variable {s : Store} {data : Nat}

@[simp] theorem tasks_bare (s : Store) : s.bare.tasks = s.tasks := rfl

@[simp] theorem size_bare (s : Store) : s.bare.wakers.size = s.wakers.size := Array.size_map

@[simp] theorem nextHandle_bare (s : Store) : s.bare.nextHandle = s.nextHandle := rfl

theorem bare_touch {v : Nat} {g : Waker → Waker} (hdata : ∀ y, (g y).data = y.data) :
    (s.touch v g).bare = s.bare := by
  have hwakers : (s.wakers.modify v g).map (fun w => ({ w with state := .polling } : Waker)) =
      s.wakers.map fun w => { w with state := .polling } := by
    apply Array.ext_getElem?
    intro u
    simp only [Array.getElem?_map, Array.getElem?_modify]
    by_cases huv : v = u
    · cases s.wakers[u]? <;> simp [huv, hdata]
    · simp [huv]
  simp only [bare, touch, hwakers]

@[simp] theorem bare_wakeWith (s : Store) (v : Nat) (result : Int) :
    (s.wakeWith v result).store.bare = s.bare := by
  rw [wakeWith_store, bare_touch Waker.woken_data]

@[simp] theorem bare_wakeAll (s : Store) (own : Array Nat) (refs : List WakerRef) :
    (s.wakeAll own refs).store.bare = s.bare := by
  induction refs generalizing s with
  | nil => rfl
  | cons ref refs ih =>
    rw [wakeAll_cons]
    cases ref.number? own with
    | none => exact ih s
    | some v => exact (ih _).trans (bare_wakeWith s v pollMaybeReady)

@[simp] theorem bare_disarm? (s : Store) (p : Option Nat) : (s.disarm? p).bare = s.bare := by
  cases p with
  | none => rfl
  | some v => exact bare_touch Waker.disarm_data

@[simp] theorem bare_dropFuture (s : Store) (handle : Nat) (own : Array Nat)
    (future : Future TaskResult) : (s.dropFuture handle own future).store.bare = s.bare :=
  bare_wakeAll s own (future.onDrop own.size)

@[simp] theorem bare_dropFuture? (s : Store) (handle : Nat) (own : Array Nat)
    (future : Option (Future TaskResult)) :
    (s.dropFuture? handle own future).store.bare = s.bare := by
  cases future with
  | none => rfl
  | some future => exact bare_dropFuture s handle own future

@[simp] theorem bare_release (s : Store) (p : Option Nat) : (s.release p).store.bare = s.bare := by
  cases p with
  | none => rfl
  | some v => exact bare_wakeWith s v pollReady

@[simp] theorem bare_setTask (s : Store) (handle : Nat) (task : LiveTask) :
    (s.setTask handle task).bare = s.bare.setTask handle task := rfl

@[simp] theorem bare_withWaker (s : Store) (handsOn : Bool) :
    (s.withWaker data handsOn).bare = s.bare.withWaker data handsOn := by
  simp [bare, withWaker]

@[simp] theorem bare_supersede (s : Store) (handle : Nat) (task : LiveTask) :
    (s.supersede handle task).bare = s.bare.setTask handle { task with pending := none } := by
  rw [supersede, bare_setTask, bare_disarm?]

/-- The task once a poll of it, whose waker is `waker`, ended so. -/
def settled (task : LiveTask) (waker : Nat) : Ending TaskResult → LiveTask
  | .pending => { task with pending := some waker }
  | .ready result => { task with future := none, output := some result }
  | .panicked panic =>
    { task with future := none, output := some (.error (.panic panic.message)) }

theorem bare_settle (s : Store) (handle waker : Nat) (task : LiveTask)
    (future : Future TaskResult) (ending : Ending TaskResult) :
    (s.settle handle waker task future ending).store.bare =
      s.bare.setTask handle (settled task waker ending) := by
  cases ending with
  | pending => rw [settle, suspend_eq, bare_touch Waker.arm_data]; rfl
  | ready result =>
    rw [settle, finish, bare_dropFuture, bare_setTask]
    exact congrArg (setTask · handle _) (bare_touch Waker.disarm_data)
  | panicked panic =>
    rw [settle, finish, bare_dropFuture, bare_setTask]
    exact congrArg (setTask · handle _) (bare_touch Waker.disarm_data)

theorem bare_pollFuture (s : Store) (handle data : Nat) (task : LiveTask)
    (future : Future TaskResult) :
    let turn := future.onPoll task.wakers.size
    (s.pollFuture handle data task future).store.bare =
      (s.bare.withWaker data turn.handsOn).setTask handle
        (settled { task with wakers := task.wakers.push s.wakers.size } s.wakers.size
          turn.ending) := by
  unfold pollFuture
  rw [runTurn_eq]
  generalize future.onPoll task.wakers.size = turn
  rw [bare_settle, bare_wakeAll, bare_withWaker]

/-- A live task after a poll of it. -/
def polled (s : Store) (task : LiveTask) : LiveTask :=
  match task.runnable? with
  | some future =>
    settled { task with pending := none, wakers := task.wakers.push s.wakers.size } s.wakers.size
      (future.onPoll task.wakers.size).ending
  | none => { task with pending := none }

theorem get?_poll (s : Store) (handle data h : Nat) :
    (s.poll handle data).store.tasks.get? h =
      if handle = h then (s.tasks.get? h).map s.polled else s.tasks.get? h := by
  cases htask : s.tasks.get? handle with
  | none =>
    rw [poll_unknown htask]
    by_cases hh : handle = h
    · subst hh
      simp [htask]
    · simp [hh]
  | some task =>
    have hbare : (s.poll handle data).store.bare.tasks.get? h =
        if handle = h then some (s.polled task) else s.tasks.get? h := by
      rw [poll_live htask]
      unfold polled
      cases task.runnable? with
      | none => rw [bare_supersede, setTask, Table.get?_set, tasks_bare]
      | some future =>
        simp only [bare_pollFuture, bare_supersede, size_supersede, setTask, withWaker,
          Table.get?_set, tasks_bare]
        split <;> rfl
    rw [tasks_bare] at hbare
    by_cases hh : handle = h
    · subst hh
      simpa [htask] using hbare
    · simpa [hh] using hbare

theorem value_suspend (s : Store) (handle waker : Nat) (task : LiveTask) :
    (s.suspend handle waker task).value = pollPending := by
  rw [suspend_eq]

/-- A poll either answers ready and leaves its task without a pending waker, or
answers pending and leaves it with the waker that it made. -/
theorem poll_answer (s : Store) (handle data : Nat) :
    ((s.poll handle data).value = pollReady ∧
        (s.poll handle data).store.pending? handle = none) ∨
      ((s.poll handle data).value = pollPending ∧
        (s.poll handle data).store.pending? handle = some s.wakers.size ∧
        (s.poll handle data).store.wakers.size = s.wakers.size + 1) := by
  unfold pending?
  rw [get?_poll, if_pos rfl, ← size_bare (s.poll handle data).store]
  cases htask : s.tasks.get? handle with
  | none => exact .inl ⟨by rw [poll_unknown htask], rfl⟩
  | some task =>
    rw [poll_live htask]
    simp only [Option.map_some, Option.bind_some, polled]
    cases task.runnable? with
    | none => exact .inl ⟨rfl, rfl⟩
    | some future =>
      simp only [bare_pollFuture, bare_supersede]
      simp only [pollFuture, size_supersede, setTask, withWaker, Array.size_push, size_bare]
      cases (future.onPoll task.wakers.size).ending with
      | pending => exact .inr ⟨value_suspend .., rfl, trivial⟩
      | ready result => exact .inl ⟨rfl, rfl⟩
      | panicked panic => exact .inl ⟨rfl, rfl⟩

theorem pending?_poll {handle h : Nat} (hne : h ≠ handle) :
    (s.poll handle data).store.pending? h = s.pending? h := by
  unfold pending?
  rw [get?_poll, if_neg hne.symm]

theorem pending?_cancel (s : Store) (handle h : Nat) :
    (s.cancel handle).store.pending? h = if h = handle then none else s.pending? h := by
  cases htask : s.tasks.get? handle with
  | none =>
    simp only [cancel, htask, pending?]
    by_cases hh : h = handle
    · simp [hh, htask]
    · simp [hh]
  | some task =>
    have hbare : (s.cancel handle).store.bare.tasks = _ :=
      congrArg Store.tasks (by rw [cancel_live htask, bare_release, bare_dropFuture?, bare_setTask])
    rw [tasks_bare] at hbare
    unfold pending?
    rw [hbare]
    by_cases hh : h = handle
    · simp [setTask, hh]
    · simp [setTask, hh, Ne.symm hh]

theorem pending?_free (s : Store) (handle h : Nat) :
    (s.free handle).store.pending? h = if h = handle then none else s.pending? h := by
  cases htask : s.tasks.get? handle with
  | none =>
    simp only [free, htask, pending?]
    by_cases hh : h = handle
    · simp [hh, htask]
    · simp [hh]
  | some task =>
    have hbare : (s.free handle).store.bare.tasks = s.tasks.erase handle := by
      simp only [free, htask, bare_dropFuture?, bare_disarm?]
      rfl
    rw [tasks_bare] at hbare
    unfold pending?
    rw [hbare]
    by_cases hh : h = handle
    · simp [hh]
    · simp [hh, Ne.symm hh]

theorem pending?_complete (s : Store) (flavour : Flavour) (handle h : Nat) :
    (s.complete flavour handle).2.pending? h = s.pending? h := by
  obtain hsame | ⟨task, htask, hset⟩ := s.complete_store flavour handle
  · rw [hsame]
  · rw [hset]
    unfold pending? setTask
    rw [Table.get?_set]
    split
    · subst h
      rw [htask]
      rfl
    · rfl

theorem pending?_wakeWith (s : Store) (v : Nat) (result : Int) (h : Nat) :
    (s.wakeWith v result).store.pending? h = s.pending? h := by
  rw [wakeWith_store]
  rfl

/-! ## What every reached store satisfies -/

/-- An operation keeps the wakers that there are, and only a poll adds one, with its data. -/
theorem wakers_perform (s : Store) (op : Operation) :
    (s.perform op).store.bare.wakers = s.bare.wakers ∨ ∃ handle data, op = .poll handle data ∧
      (s.perform op).store.bare.wakers = s.bare.wakers.push { data } := by
  cases op with
  | spawn future => exact .inl rfl
  | poll handle data =>
    simp only [perform, Step.map]
    cases htask : s.tasks.get? handle with
    | none =>
      rw [poll_unknown htask]
      exact .inl rfl
    | some task =>
      rw [poll_live htask]
      cases task.runnable? with
      | none =>
        refine .inl ?_
        rw [bare_supersede]
        rfl
      | some future =>
        refine .inr ⟨handle, data, rfl, ?_⟩
        simp only [bare_pollFuture, bare_supersede]
        rfl
  | cancel handle =>
    refine .inl ?_
    simp only [perform, Step.map]
    cases htask : s.tasks.get? handle with
    | none => simp only [cancel, htask]
    | some task =>
      rw [cancel_live htask, bare_release, bare_dropFuture?, bare_setTask]
      rfl
  | free handle =>
    refine .inl ?_
    simp only [perform, Step.map]
    cases htask : s.tasks.get? handle with
    | none => simp only [free, htask]
    | some task =>
      simp only [free, htask, bare_dropFuture?, bare_disarm?]
      rfl
  | complete flavour handle =>
    refine .inl ?_
    simp only [perform, bare, complete_wakers]
  | wake v =>
    refine .inl ?_
    simp only [perform, Step.map, wake, bare_wakeWith]

theorem size_le_perform (s : Store) (op : Operation) :
    s.wakers.size ≤ (s.perform op).store.wakers.size := by
  rw [← size_bare s, ← size_bare (s.perform op).store]
  obtain hsame | ⟨handle, data, _, hpush⟩ := s.wakers_perform op
  · rw [hsame]
  · rw [hpush, Array.size_push]
    omega

/-- No waker has been made with this data. -/
def Unused (s : Store) (data : Nat) : Prop := ∀ y ∈ s.bare.wakers, y.data ≠ data

theorem Unused.perform (h : s.Unused data) {op : Operation}
    (hop : ∀ handle, op ≠ .poll handle data) : (s.perform op).store.Unused data := by
  intro y hy
  obtain hsame | ⟨handle, d, rfl, hpush⟩ := s.wakers_perform op
  · rw [hsame] at hy
    exact h y hy
  · rw [hpush, Array.mem_push] at hy
    obtain hold | rfl := hy
    · exact h y hold
    · exact fun hdata => hop handle (hdata ▸ rfl)

theorem Unused.data_ne (h : s.Unused data) (v : Nat) (y : Waker) (hy : s.wakers[v]? = some y) :
    y.data ≠ data := by
  have hmem : ({ y with state := .polling } : Waker) ∈ s.bare.wakers :=
    Array.mem_map.2 ⟨y, Array.mem_of_getElem? hy, rfl⟩
  have hne := h _ hmem
  exact hne

theorem Unused.silent (h : s.Unused data) : s.Silent data :=
  fun v y hy hdata => absurd hdata (h.data_ne v y hy)

/-- What holds of every store that a run reaches. -/
structure Sound (s : Store) : Prop where
  /-- No task stands under a handle that is still to be issued. -/
  unissued : ∀ h, s.nextHandle ≤ h → s.tasks.get? h = none
  /-- Every pending waker has been made. -/
  made : ∀ h w, s.pending? h = some w → w < s.wakers.size

theorem sound_empty : ({} : Store).Sound where
  unissued _ _ := rfl
  made _ _ hw := nomatch hw

/-- Only spawning a task puts one where there was none. -/
theorem get?_perform_of_none {h : Nat} (hnone : s.tasks.get? h = none) (op : Operation)
    (hspawn : ∀ future, op = .spawn future → h ≠ s.nextHandle) :
    (s.perform op).store.tasks.get? h = none := by
  cases op with
  | spawn future =>
    simp only [perform, Step.map, spawn, Table.get?_set]
    rw [if_neg (hspawn future rfl).symm]
    exact hnone
  | poll handle data =>
    simp only [perform, Step.map, get?_poll, hnone, Option.map_none, ite_self]
  | cancel handle =>
    simp only [perform, Step.map]
    cases htask : s.tasks.get? handle with
    | none => simpa only [cancel, htask] using hnone
    | some task =>
      have hne : handle ≠ h := by
        rintro rfl
        rw [hnone] at htask
        cases htask
      rw [← tasks_bare, cancel_live htask, bare_release, bare_dropFuture?, bare_setTask]
      simp only [setTask, Table.get?_set, if_neg hne]
      exact hnone
  | free handle =>
    simp only [perform, Step.map]
    cases htask : s.tasks.get? handle with
    | none => simpa only [free, htask] using hnone
    | some task =>
      rw [← tasks_bare]
      simp only [free, htask, bare_dropFuture?, bare_disarm?]
      simp only [tasks_bare, Table.get?_erase, hnone, ite_self]
  | complete flavour handle =>
    simp only [perform]
    obtain hsame | ⟨task, htask, hset⟩ := s.complete_store flavour handle
    · rw [hsame]
      exact hnone
    · have hne : handle ≠ h := by
        rintro rfl
        rw [hnone] at htask
        cases htask
      rw [hset]
      simp only [setTask, Table.get?_set, if_neg hne]
      exact hnone
  | wake v =>
    simp only [perform, Step.map, wake, wakeWith_store]
    exact hnone

theorem nextHandle_perform (s : Store) (op : Operation) :
    (s.perform op).store.nextHandle =
      match op with
      | .spawn _ => s.nextHandle + 1
      | _ => s.nextHandle := by
  cases op with
  | spawn future => rfl
  | poll handle data =>
    simp only [perform, Step.map]
    cases htask : s.tasks.get? handle with
    | none => rw [poll_unknown htask]
    | some task =>
      rw [poll_live htask, ← nextHandle_bare, ← nextHandle_bare s]
      cases task.runnable? with
      | none => rw [bare_supersede]; rfl
      | some future => simp only [bare_pollFuture, bare_supersede]; rfl
  | cancel handle =>
    simp only [perform, Step.map]
    cases htask : s.tasks.get? handle with
    | none => simp only [cancel, htask]
    | some task =>
      rw [cancel_live htask, ← nextHandle_bare, bare_release, bare_dropFuture?]
      rfl
  | free handle =>
    simp only [perform, Step.map]
    cases htask : s.tasks.get? handle with
    | none => simp only [free, htask]
    | some task =>
      simp only [free, htask]
      rw [← nextHandle_bare, bare_dropFuture?, bare_disarm?]
      rfl
  | complete flavour handle =>
    obtain hsame | ⟨task, _, hset⟩ := s.complete_store flavour handle
    · simp only [perform, hsame]
    · simp only [perform, hset]
      rfl
  | wake v =>
    simp only [perform, Step.map, wake, wakeWith_store]
    rfl

theorem nextHandle_le_perform (s : Store) (op : Operation) :
    s.nextHandle ≤ (s.perform op).store.nextHandle := by
  rw [nextHandle_perform]
  split <;> omega

/-- A pending waker after an operation was pending before, or the operation is
the poll that made it. -/
theorem pending?_of_perform {op : Operation} {h w : Nat}
    (hw : (s.perform op).store.pending? h = some w) :
    s.pending? h = some w ∨ w = s.wakers.size ∧
      (∃ data, op = .poll h data) ∧ w < (s.perform op).store.wakers.size := by
  cases op with
  | spawn future =>
    simp only [perform, Step.map, spawn, pending?, Table.get?_set] at hw ⊢
    split at hw
    · cases hw
    · exact .inl hw
  | poll handle data =>
    by_cases hh : h = handle
    · subst hh
      obtain ⟨_, hnone⟩ | ⟨_, hsome, hsize⟩ := s.poll_answer h data
      · rw [perform, Step.map, hnone] at hw
        cases hw
      · obtain rfl := Option.some.inj (hsome.symm.trans hw)
        exact .inr ⟨rfl, ⟨data, rfl⟩, hsize ▸ Nat.lt_succ_self _⟩
    · exact .inl ((pending?_poll hh).symm.trans hw)
  | cancel handle =>
    simp only [perform, Step.map, pending?_cancel] at hw
    split at hw
    · cases hw
    · exact .inl hw
  | free handle =>
    simp only [perform, Step.map, pending?_free] at hw
    split at hw
    · cases hw
    · exact .inl hw
  | complete flavour handle => exact .inl ((pending?_complete s flavour handle h).symm.trans hw)
  | wake v => exact .inl ((pending?_wakeWith s v pollMaybeReady h).symm.trans hw)

theorem Sound.perform (hs : s.Sound) (op : Operation) : (s.perform op).store.Sound where
  unissued := by
    intro h hh
    rw [nextHandle_perform] at hh
    cases op with
    | spawn future =>
      dsimp only at hh
      exact get?_perform_of_none (hs.unissued h (by omega)) _ fun _ _ => by omega
    | _ => exact get?_perform_of_none (hs.unissued h hh) _ fun _ heq => nomatch heq
  made := by
    intro h w hw
    obtain hbefore | ⟨_, _, hlt⟩ := pending?_of_perform hw
    · exact Nat.lt_of_lt_of_le (hs.made h w hbefore) (size_le_perform s op)
    · exact hlt

/-- An operation that neither polls, cancels nor frees a task leaves its pending waker. -/
theorem Sound.pending?_perform (hs : s.Sound) {op : Operation} {h w : Nat}
    (hw : s.pending? h = some w) (hpoll : ∀ data, op ≠ .poll h data) (hcancel : op ≠ .cancel h)
    (hfree : op ≠ .free h) : (s.perform op).store.pending? h = some w := by
  cases op with
  | spawn future =>
    have hne : s.nextHandle ≠ h := by
      rintro rfl
      simp [pending?, hs.unissued s.nextHandle le_rfl] at hw
    simp only [Store.perform, Step.map, spawn, pending?, Table.get?_set, if_neg hne]
    exact hw
  | poll handle data =>
    have hne : h ≠ handle := fun heq => hpoll data (heq ▸ rfl)
    exact (pending?_poll hne).trans hw
  | cancel handle =>
    have hne : h ≠ handle := fun heq => hcancel (heq ▸ rfl)
    simp only [Store.perform, Step.map, pending?_cancel, if_neg hne]
    exact hw
  | free handle =>
    have hne : h ≠ handle := fun heq => hfree (heq ▸ rfl)
    simp only [Store.perform, Step.map, pending?_free, if_neg hne]
    exact hw
  | complete flavour handle => exact (pending?_complete s flavour handle h).trans hw
  | wake v => exact (pending?_wakeWith s v pollMaybeReady h).trans hw

end CoreBridge.Task.Store
