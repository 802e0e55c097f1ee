import CoreBridge.Proofs.Task.Run

/-!
# One waker through an operation

What an operation does to a waker is said here once for every operation: it is
disarmed if it is the pending waker of a task that is polled again or freed,
then woken if the operation wakes it (`wakesOf`), then released if it is the
pending waker of a task that is cancelled; and the continuation is invoked
where an armed waker is woken or released, and nowhere else. A waker that is
spent stays so and invokes nothing (`Silent`).
-/
namespace CoreBridge.Task

/-- The wakers named, where `own` are the wakers of the future that names them. -/
def WakerRef.named (own : Array Nat) (refs : List WakerRef) : List Nat :=
  refs.filterMap (·.number? own)

namespace Store

/-- The wakers woken when a poll of `future` ends: by dropping it, unless it stays pending. -/
def wakesOfEnding (own : Array Nat) (future : Future TaskResult) : Ending TaskResult → List Nat
  | .pending => []
  | .ready _ | .panicked _ => WakerRef.named own (future.onDrop own.size)

/-- The wakers woken in a poll of `future`: by its own part of the poll, and by
dropping it if the poll ends it. -/
def wakesOfPoll (s : Store) (task : LiveTask) (future : Future TaskResult) : List Nat :=
  let own := task.wakers.push s.wakers.size
  let turn := future.onPoll task.wakers.size
  WakerRef.named own turn.wakes ++ wakesOfEnding own future turn.ending

/-- The wakers woken by dropping the future of a task. -/
def wakesOfDrop (task : LiveTask) : List Nat :=
  match task.future with
  | some future => WakerRef.named task.wakers (future.onDrop task.wakers.size)
  | none => []

/-- The wakers woken while an operation is performed, in order. -/
def wakesOf (s : Store) : Operation → List Nat
  | .wake waker => [waker]
  | .poll handle _ =>
    match s.tasks.get? handle with
    | some task =>
      match task.runnable? with
      | some future => s.wakesOfPoll task future
      | none => []
    | none => []
  | .cancel handle | .free handle =>
    match s.tasks.get? handle with
    | some task => wakesOfDrop task
    | none => []
  | .spawn _ | .complete .. => []

/-- The waker whose continuation a task may still owe. -/
def pending? (s : Store) (handle : Nat) : Option Nat := (s.tasks.get? handle).bind (·.pending)

/-- The waker that an operation disarms before anything else. -/
def disarmedBy (s : Store) : Operation → Option Nat
  | .poll handle _ | .free handle => s.pending? handle
  | _ => none

/-- The waker that an operation releases after everything else. -/
def releasedBy (s : Store) : Operation → Option Nat
  | .cancel handle => s.pending? handle
  | _ => none

/-! ## One waker -/

/-- The store with the waker of a number changed by `g`. -/
def touch (s : Store) (waker : Nat) (g : Waker → Waker) : Store :=
  { s with wakers := s.wakers.modify waker g }

/-- The waker with number `w` is `x`, and no other one has its data. -/
def IsMarked (s : Store) (w : Nat) (x : Waker) : Prop :=
  s.wakers[w]? = some x ∧ ∀ v y, s.wakers[v]? = some y → y.data = x.data → v = w

/-- Every waker with this data is spent. -/
def Silent (s : Store) (data : Nat) : Prop :=
  ∀ (v : Nat) (y : Waker), s.wakers[v]? = some y → y.data = data → y.state = .spent

variable {s : Store} {w v data : Nat} {x : Waker} {g : Waker → Waker}

theorem IsMarked.lt (h : s.IsMarked w x) : w < s.wakers.size := by
  obtain ⟨hw, _⟩ := Array.getElem?_eq_some_iff.1 h.1
  exact hw

theorem IsMarked.silent (h : s.IsMarked w x) (hx : x.state = .spent) : s.Silent x.data := by
  intro v y hy hdata
  obtain rfl := h.2 v y hy hdata
  obtain rfl := Option.some.inj (h.1.symm.trans hy)
  exact hx

theorem getElem?_touch (u : Nat) : (s.touch v g).wakers[u]? =
    if v = u then s.wakers[u]?.map g else s.wakers[u]? := Array.getElem?_modify

theorem IsMarked.touch (h : s.IsMarked w x) (hdata : ∀ y, (g y).data = y.data) :
    (s.touch v g).IsMarked w (if v = w then g x else x) := by
  have hmark : (if v = w then g x else x).data = x.data := by
    split
    · exact hdata x
    · rfl
  constructor
  · rw [getElem?_touch, h.1]
    split <;> rfl
  · intro u y hy hu
    rw [hmark] at hu
    rw [getElem?_touch] at hy
    split at hy
    · obtain ⟨y', hy', rfl⟩ := Option.map_eq_some_iff.1 hy
      exact h.2 u y' hy' ((hdata y').symm.trans hu)
    · exact h.2 u y hy hu

theorem Silent.touch (h : s.Silent data) (hdata : ∀ y, (g y).data = y.data)
    (hspent : ∀ y, y.state = .spent → (g y).state = .spent) : (s.touch v g).Silent data := by
  intro u y hy hu
  rw [getElem?_touch] at hy
  split at hy
  · obtain ⟨y', hy', rfl⟩ := Option.map_eq_some_iff.1 hy
    exact hspent y' (h u y' hy' ((hdata y').symm.trans hu))
  · exact h u y hy hu

/-! ## Waking -/

theorem modify_of_none {α : Type} {xs : Array α} {i : Nat} (f : α → α) (h : xs[i]? = none) :
    xs.modify i f = xs := by
  apply Array.ext_getElem?
  intro j
  rw [Array.getElem?_modify]
  split
  · subst j
    rw [h]
    rfl
  · rfl

theorem setIfInBounds_eq_modify {α : Type} {xs : Array α} {i : Nat} {a : α} (f : α → α)
    (h : xs[i]? = some a) : xs.setIfInBounds i (f a) = xs.modify i f := by
  apply Array.ext_getElem?
  intro j
  obtain ⟨hlt, _⟩ := Array.getElem?_eq_some_iff.1 h
  rw [Array.getElem?_modify, Array.getElem?_setIfInBounds]
  split
  · subst j
    rw [h]
    rfl
  · rfl

theorem wakeWith_store (s : Store) (v : Nat) (result : Int) :
    (s.wakeWith v result).store = s.touch v Waker.woken := by
  unfold wakeWith Store.touch
  cases hv : s.wakers[v]? with
  | none => rw [modify_of_none Waker.woken hv]
  | some y => simp only [setIfInBounds_eq_modify Waker.woken hv]

theorem wakeWith_firings (h : s.IsMarked w x) (v : Nat) (result : Int) :
    (s.wakeWith v result).trace.firings x.data =
      if v = w ∧ x.isArmed then [result] else [] := by
  unfold wakeWith
  by_cases hv : v = w
  · subst hv
    rw [h.1]
    by_cases hx : x.isArmed = true <;>
      simp [hx, Trace.firings, Observation.firing?]
  · rw [if_neg fun hand => hv hand.1]
    cases hy : s.wakers[v]? with
    | none => rfl
    | some y =>
      have hne : y.data ≠ x.data := fun hdata => hv (h.2 v y hy hdata)
      by_cases harmed : y.isArmed = true <;>
        simp [harmed, Trace.firings, Observation.firing?, hne]

theorem Silent.wakeWith_firings (h : s.Silent data) (v : Nat) (result : Int) :
    (s.wakeWith v result).trace.firings data = [] := by
  unfold wakeWith
  cases hy : s.wakers[v]? with
  | none => rfl
  | some y =>
    by_cases hdata : y.data = data
    · have harmed : y.isArmed = false := by simp [Waker.isArmed, h v y hy hdata]
      simp [harmed]
    · by_cases harmed : y.isArmed = true <;>
        simp [harmed, Trace.firings, Observation.firing?, hdata]

theorem Silent.wakeWith (h : s.Silent data) (v : Nat) (result : Int) :
    (s.wakeWith v result).store.Silent data := by
  rw [wakeWith_store]
  exact h.touch Waker.woken_data fun y => Waker.woken_spent

theorem wakeAll_cons (s : Store) (own : Array Nat) (ref : WakerRef) (refs : List WakerRef) :
    s.wakeAll own (ref :: refs) =
      match ref.number? own with
      | some v => ⟨(), ((s.wake v).store.wakeAll own refs).store,
          (s.wake v).trace ++ ((s.wake v).store.wakeAll own refs).trace⟩
      | none => s.wakeAll own refs := by
  rw [wakeAll]
  cases ref.number? own <;> rfl

theorem IsMarked.wakeAll (h : s.IsMarked w x) (own : Array Nat) (refs : List WakerRef) :
    (s.wakeAll own refs).store.IsMarked w (if w ∈ WakerRef.named own refs then x.woken else x) ∧
      (s.wakeAll own refs).trace.firings x.data =
        if w ∈ WakerRef.named own refs ∧ x.isArmed then [pollMaybeReady] else [] := by
  induction refs generalizing s x with
  | nil => exact ⟨by simpa [WakerRef.named, Store.wakeAll] using h, by
      simp [WakerRef.named, Store.wakeAll]⟩
  | cons ref refs ih =>
    rw [wakeAll_cons]
    cases href : ref.number? own with
    | none =>
      have hnamed : WakerRef.named own (ref :: refs) = WakerRef.named own refs := by
        simp [WakerRef.named, href]
      rw [hnamed]
      exact ih h
    | some v =>
      have hnamed : WakerRef.named own (ref :: refs) = v :: WakerRef.named own refs := by
        simp [WakerRef.named, href]
      have hmark : (s.wake v).store.IsMarked w (if v = w then x.woken else x) := by
        rw [wake, wakeWith_store]
        exact h.touch Waker.woken_data
      have hfire : (s.wake v).trace.firings x.data =
          if v = w ∧ x.isArmed then [pollMaybeReady] else [] :=
        wakeWith_firings h v pollMaybeReady
      obtain ⟨hmark', hfire'⟩ := ih hmark
      by_cases hv : v = w
      · subst hv
        simp only [if_true, Waker.woken_data, Waker.woken_woken, Waker.isArmed_woken, ite_self]
          at hmark' hfire'
        refine ⟨by simpa [hnamed] using hmark', ?_⟩
        simp [hfire, hfire', hnamed]
      · simp only [if_neg hv] at hmark' hfire'
        refine ⟨by simpa [hnamed, Ne.symm hv] using hmark', ?_⟩
        simp [hfire, hfire', hnamed, hv, Ne.symm hv]

theorem Silent.wakeAll (h : s.Silent data) (own : Array Nat) (refs : List WakerRef) :
    (s.wakeAll own refs).store.Silent data ∧ (s.wakeAll own refs).trace.firings data = [] := by
  induction refs generalizing s with
  | nil => exact ⟨h, rfl⟩
  | cons ref refs ih =>
    rw [wakeAll_cons]
    cases ref.number? own with
    | none => exact ih h
    | some v =>
      obtain ⟨hstore, htrace⟩ := ih (h.wakeWith v pollMaybeReady)
      exact ⟨hstore, by simp [wake, h.wakeWith_firings, htrace]⟩

/-! ## The parts of an operation -/

theorem IsMarked.disarm? (h : s.IsMarked w x) (p : Option Nat) :
    (s.disarm? p).IsMarked w (if p = some w then x.disarm else x) := by
  cases p with
  | none => exact h
  | some v =>
    simp only [Option.some.injEq]
    exact h.touch Waker.disarm_data

theorem Silent.disarm? (h : s.Silent data) (p : Option Nat) : (s.disarm? p).Silent data := by
  cases p with
  | none => exact h
  | some v => exact h.touch Waker.disarm_data fun _ _ => rfl

theorem IsMarked.dropFuture (h : s.IsMarked w x) (handle : Nat) (own : Array Nat)
    (future : Future TaskResult) :
    (s.dropFuture handle own future).store.IsMarked w
        (if w ∈ WakerRef.named own (future.onDrop own.size) then x.woken else x) ∧
      (s.dropFuture handle own future).trace.firings x.data =
        if w ∈ WakerRef.named own (future.onDrop own.size) ∧ x.isArmed
          then [pollMaybeReady] else [] := h.wakeAll own (future.onDrop own.size)

theorem Silent.dropFuture (h : s.Silent data) (handle : Nat) (own : Array Nat)
    (future : Future TaskResult) :
    (s.dropFuture handle own future).store.Silent data ∧
      (s.dropFuture handle own future).trace.firings data = [] :=
  h.wakeAll own (future.onDrop own.size)

/-- Dropping the future of a task, if it has one. -/
theorem IsMarked.dropFuture? (h : s.IsMarked w x) (handle : Nat) (task : LiveTask) :
    (s.dropFuture? handle task.wakers task.future).store.IsMarked w
        (if w ∈ wakesOfDrop task then x.woken else x) ∧
      (s.dropFuture? handle task.wakers task.future).trace.firings x.data =
        if w ∈ wakesOfDrop task ∧ x.isArmed then [pollMaybeReady] else [] := by
  unfold wakesOfDrop
  cases task.future with
  | none => exact ⟨by simpa [Store.dropFuture?] using h, by simp [Store.dropFuture?]⟩
  | some future => exact h.dropFuture handle task.wakers future

theorem Silent.dropFuture? (h : s.Silent data) (handle : Nat) (task : LiveTask) :
    (s.dropFuture? handle task.wakers task.future).store.Silent data ∧
      (s.dropFuture? handle task.wakers task.future).trace.firings data = [] := by
  cases task.future with
  | none => exact ⟨h, rfl⟩
  | some future => exact h.dropFuture handle task.wakers future

theorem suspend_eq (s : Store) (handle v : Nat) (task : LiveTask) :
    s.suspend handle v task =
      ⟨pollPending, (s.setTask handle { task with pending := some v }).touch v Waker.arm,
        match s.wakers[v]? with
        | some y => if y.isDue then [.fired y.data pollMaybeReady] else []
        | none => []⟩ := by
  have hwakers : (s.setTask handle { task with pending := some v }).wakers = s.wakers := rfl
  unfold suspend Store.touch
  cases hv : s.wakers[v]? with
  | none => simp only [hwakers, hv, modify_of_none Waker.arm hv]; rfl
  | some y => simp only [hwakers, hv, setIfInBounds_eq_modify Waker.arm hv]

theorem IsMarked.suspend (h : s.IsMarked w x) (handle v : Nat) (task : LiveTask) :
    (s.suspend handle v task).store.IsMarked w (if v = w then x.arm else x) ∧
      (s.suspend handle v task).trace.firings x.data =
        if v = w ∧ x.isDue then [pollMaybeReady] else [] := by
  have hset : (s.setTask handle { task with pending := some v }).IsMarked w x := h
  rw [suspend_eq]
  refine ⟨hset.touch Waker.arm_data, ?_⟩
  by_cases hv : v = w
  · subst hv
    rw [h.1]
    by_cases hx : x.isDue = true <;> simp [hx, Trace.firings, Observation.firing?]
  · rw [if_neg fun hand => hv hand.1]
    cases hy : s.wakers[v]? with
    | none => rfl
    | some y =>
      have hne : y.data ≠ x.data := fun hdata => hv (h.2 v y hy hdata)
      by_cases hdue : y.isDue = true <;>
        simp [hdue, Trace.firings, Observation.firing?, hne]

theorem Silent.suspend (h : s.Silent data) (handle v : Nat) (task : LiveTask) :
    (s.suspend handle v task).store.Silent data ∧
      (s.suspend handle v task).trace.firings data = [] := by
  have hset : (s.setTask handle { task with pending := some v }).Silent data := h
  rw [suspend_eq]
  refine ⟨hset.touch Waker.arm_data fun _ => Waker.arm_spent, ?_⟩
  cases hy : s.wakers[v]? with
  | none => rfl
  | some y =>
    by_cases hdata : y.data = data
    · have hdue : y.isDue = false := by simp [Waker.isDue, h v y hy hdata]
      simp [hdue]
    · by_cases hdue : y.isDue = true <;>
        simp [hdue, Trace.firings, Observation.firing?, hdata]

theorem IsMarked.finish (h : s.IsMarked w x) (handle v : Nat) (task : LiveTask)
    (future : Future TaskResult) (result : TaskResult) :
    let y := if v = w then x.disarm else x
    let drops := WakerRef.named task.wakers (future.onDrop task.wakers.size)
    (s.finish handle v task future result).store.IsMarked w (if w ∈ drops then y.woken else y) ∧
      (s.finish handle v task future result).trace.firings x.data =
        if w ∈ drops ∧ y.isArmed then [pollMaybeReady] else [] := by
  have hdisarm : (s.disarm v).IsMarked w (if v = w then x.disarm else x) :=
    h.touch Waker.disarm_data
  have hdata : (if v = w then x.disarm else x).data = x.data := by split <;> rfl
  have hset : ((s.disarm v).setTask handle
      { task with future := none, output := some result }).IsMarked w _ := hdisarm
  have hdrop := hset.dropFuture handle task.wakers future
  rw [hdata] at hdrop
  exact hdrop

theorem Silent.finish (h : s.Silent data) (handle v : Nat) (task : LiveTask)
    (future : Future TaskResult) (result : TaskResult) :
    (s.finish handle v task future result).store.Silent data ∧
      (s.finish handle v task future result).trace.firings data = [] := by
  have hset : ((s.disarm v).setTask handle
      { task with future := none, output := some result }).Silent data :=
    h.disarm? (some v)
  exact hset.dropFuture handle task.wakers future

/-- The store once a poll has made its waker. -/
def withWaker (s : Store) (data : Nat) (handsOn : Bool) : Store :=
  { s with
    wakers := s.wakers.push { data }
    handedOn := if handsOn then s.handedOn.push s.wakers.size else s.handedOn }

theorem runTurn_eq (s : Store) (data : Nat) (task : LiveTask) (future : Future TaskResult) :
    let turn := future.onPoll task.wakers.size
    let own := task.wakers.push s.wakers.size
    s.runTurn data task future =
      ⟨{ task with wakers := own },
        ((s.withWaker data turn.handsOn).wakeAll own turn.wakes).store,
        ((s.withWaker data turn.handsOn).wakeAll own turn.wakes).trace⟩ := rfl

theorem IsMarked.withWaker (h : s.IsMarked w x) (hdata : data ≠ x.data) (handsOn : Bool) :
    (s.withWaker data handsOn).IsMarked w x := by
  constructor
  · simp only [Store.withWaker, Array.getElem?_push_lt h.lt]
    exact (Array.getElem?_eq_getElem h.lt).symm.trans h.1
  · intro u y hy hu
    simp only [Store.withWaker, Array.getElem?_push] at hy
    split at hy
    · obtain rfl := Option.some.inj hy
      exact absurd hu hdata
    · exact h.2 u y hy hu

theorem Silent.withWaker {d : Nat} (h : s.Silent data) (hdata : d ≠ data) (handsOn : Bool) :
    (s.withWaker d handsOn).Silent data := by
  intro u y hy hu
  simp only [Store.withWaker, Array.getElem?_push] at hy
  split at hy
  · obtain rfl := Option.some.inj hy
    exact absurd hu hdata
  · exact h u y hy hu

/-- A fresh waker is marked if its data is fresh. -/
theorem isMarked_withWaker
    (h : ∀ (v : Nat) (y : Waker), s.wakers[v]? = some y → y.data ≠ data) (handsOn : Bool) :
    (s.withWaker data handsOn).IsMarked s.wakers.size { data } := by
  constructor
  · simp [Store.withWaker]
  · intro u y hy hu
    simp only [Store.withWaker, Array.getElem?_push] at hy
    split at hy
    · assumption
    · exact absurd hu (h u y hy)

/-! ## Whole operations -/

theorem IsMarked.settle (h : s.IsMarked w x) (hv : v ≠ w) (handle : Nat) (task : LiveTask)
    (future : Future TaskResult) (ending : Ending TaskResult) :
    (s.settle handle v task future ending).store.IsMarked w
        (if w ∈ wakesOfEnding task.wakers future ending then x.woken else x) ∧
      (s.settle handle v task future ending).trace.firings x.data =
        if w ∈ wakesOfEnding task.wakers future ending ∧ x.isArmed
          then [pollMaybeReady] else [] := by
  cases ending with
  | pending =>
    have hsuspend := h.suspend handle v task
    simp only [hv, if_false, false_and] at hsuspend
    simpa [Store.settle, wakesOfEnding] using hsuspend
  | ready result =>
    have hfinish := h.finish handle v task future result
    simp only [hv, if_false] at hfinish
    exact hfinish
  | panicked panic =>
    have hfinish := h.finish handle v task future (.error (.panic panic.message))
    simp only [hv, if_false] at hfinish
    exact hfinish

theorem Silent.settle (h : s.Silent data) (handle v : Nat) (task : LiveTask)
    (future : Future TaskResult) (ending : Ending TaskResult) :
    (s.settle handle v task future ending).store.Silent data ∧
      (s.settle handle v task future ending).trace.firings data = [] := by
  cases ending with
  | pending => exact h.suspend handle v task
  | ready result => exact h.finish handle v task future result
  | panicked panic => exact h.finish handle v task future _

theorem IsMarked.pollFuture (h : s.IsMarked w x) (hdata : data ≠ x.data) (handle : Nat)
    (task : LiveTask) (future : Future TaskResult) :
    (s.pollFuture handle data task future).store.IsMarked w
        (if w ∈ s.wakesOfPoll task future then x.woken else x) ∧
      (s.pollFuture handle data task future).trace.firings x.data =
        if w ∈ s.wakesOfPoll task future ∧ x.isArmed then [pollMaybeReady] else [] := by
  unfold Store.pollFuture wakesOfPoll
  rw [runTurn_eq]
  generalize future.onPoll task.wakers.size = turn
  obtain ⟨hran, hfire⟩ := (h.withWaker hdata turn.handsOn).wakeAll
    (task.wakers.push s.wakers.size) turn.wakes
  have hsettle := hran.settle (Nat.ne_of_gt h.lt) handle
    { task with wakers := task.wakers.push s.wakers.size } future turn.ending
  simp only [Trace.firings_append, hfire, List.mem_append]
  by_cases hturn : w ∈ WakerRef.named (task.wakers.push s.wakers.size) turn.wakes
  · simpa [hturn] using hsettle
  · simpa [hturn] using hsettle

theorem Silent.pollFuture {d : Nat} (h : s.Silent data) (hdata : d ≠ data) (handle : Nat)
    (task : LiveTask) (future : Future TaskResult) :
    (s.pollFuture handle d task future).store.Silent data ∧
      (s.pollFuture handle d task future).trace.firings data = [] := by
  unfold Store.pollFuture
  rw [runTurn_eq]
  generalize future.onPoll task.wakers.size = turn
  obtain ⟨hran, hfire⟩ := (h.withWaker hdata turn.handsOn).wakeAll
    (task.wakers.push s.wakers.size) turn.wakes
  obtain ⟨hstore, htrace⟩ := hran.settle handle s.wakers.size
    { task with wakers := task.wakers.push s.wakers.size } future turn.ending
  exact ⟨hstore, by simp only [Trace.firings_append, hfire, htrace, List.append_nil]⟩

theorem poll_unknown {handle : Nat} (htask : s.tasks.get? handle = none) : s.poll handle data =
    ⟨pollReady, s, [.log .error s!"future_poll on unknown task handle {handle}"]⟩ := by
  simp only [poll, htask]

theorem poll_live {task : LiveTask} {handle : Nat} (htask : s.tasks.get? handle = some task) :
    s.poll handle data =
      match task.runnable? with
      | some future =>
        (s.supersede handle task).pollFuture handle data { task with pending := none } future
      | none => ⟨pollReady, s.supersede handle task, []⟩ := by
  cases hrunnable : task.runnable? with
  | none => simp [poll, htask, hrunnable]
  | some future => simp [poll, htask, hrunnable]

theorem wakesOf_poll {task : LiveTask} {handle : Nat} (htask : s.tasks.get? handle = some task) :
    s.wakesOf (.poll handle data) =
      match task.runnable? with
      | some future => s.wakesOfPoll task future
      | none => [] := by
  simp only [wakesOf, htask]

@[simp] theorem size_disarm? (p : Option Nat) : (s.disarm? p).wakers.size = s.wakers.size := by
  cases p with
  | none => rfl
  | some v => simp [disarm?, disarm]

@[simp] theorem size_supersede (handle : Nat) (task : LiveTask) :
    (s.supersede handle task).wakers.size = s.wakers.size := size_disarm? task.pending

/-- What a poll does to a waker that is not its own. -/
theorem IsMarked.poll (h : s.IsMarked w x) (hdata : data ≠ x.data) (handle : Nat) :
    let y := if s.pending? handle = some w then x.disarm else x
    (s.poll handle data).store.IsMarked w
        (if w ∈ s.wakesOf (.poll handle data) then y.woken else y) ∧
      (s.poll handle data).trace.firings x.data =
        if w ∈ s.wakesOf (.poll handle data) ∧ y.isArmed then [pollMaybeReady] else [] := by
  cases htask : s.tasks.get? handle with
  | none =>
    rw [poll_unknown htask]
    simp only [pending?, wakesOf, htask]
    exact ⟨by simpa using h, by simp [Trace.firings, Observation.firing?]⟩
  | some task =>
    have hpending : s.pending? handle = task.pending := by simp [pending?, htask]
    rw [poll_live htask, wakesOf_poll htask, hpending]
    have hsup : (s.supersede handle task).IsMarked w
        (if task.pending = some w then x.disarm else x) := h.disarm? task.pending
    have hsame : (if task.pending = some w then x.disarm else x).data = x.data := by
      split <;> rfl
    cases task.runnable? with
    | none => exact ⟨by simpa using hsup, by simp⟩
    | some future =>
      have hpoll := hsup.pollFuture (hsame ▸ hdata) handle { task with pending := none } future
      simp only [wakesOfPoll, size_supersede, hsame] at hpoll
      exact hpoll

theorem Silent.poll {d : Nat} (h : s.Silent data) (hdata : d ≠ data) (handle : Nat) :
    (s.poll handle d).store.Silent data ∧ (s.poll handle d).trace.firings data = [] := by
  cases htask : s.tasks.get? handle with
  | none =>
    rw [poll_unknown htask]
    exact ⟨h, rfl⟩
  | some task =>
    rw [poll_live htask]
    have hsup : (s.supersede handle task).Silent data := h.disarm? task.pending
    cases task.runnable? with
    | none => exact ⟨hsup, rfl⟩
    | some future => exact hsup.pollFuture hdata handle { task with pending := none } future

/-- Cancelling a task, once its future is dropped, releases its pending waker. -/
def release (s : Store) : Option Nat → Step Unit
  | some waker => s.wakeWith waker pollReady
  | none => ⟨(), s, []⟩

theorem cancel_live {task : LiveTask} {handle : Nat} (htask : s.tasks.get? handle = some task) :
    let forgotten := s.setTask handle
      { task with future := none, output := none, cancelled := true, pending := none }
    let dropped := forgotten.dropFuture? handle task.wakers task.future
    s.cancel handle = ⟨(), (dropped.store.release task.pending).store,
      dropped.trace ++ (dropped.store.release task.pending).trace ++
        [.log .debug s!"Cancelled task {handle}"]⟩ := by
  simp only [cancel, htask]
  cases task.pending <;> rfl

theorem IsMarked.release (h : s.IsMarked w x) (p : Option Nat) :
    (s.release p).store.IsMarked w (if p = some w then x.woken else x) ∧
      (s.release p).trace.firings x.data = if p = some w ∧ x.isArmed then [pollReady] else [] := by
  cases p with
  | none => exact ⟨by simpa [Store.release] using h, by simp [Store.release]⟩
  | some v =>
    simp only [Store.release, wakeWith_store, wakeWith_firings h, Option.some.injEq]
    exact ⟨h.touch Waker.woken_data, trivial⟩

theorem Silent.release (h : s.Silent data) (p : Option Nat) :
    (s.release p).store.Silent data ∧ (s.release p).trace.firings data = [] := by
  cases p with
  | none => exact ⟨h, rfl⟩
  | some v => exact ⟨h.wakeWith v pollReady, h.wakeWith_firings v pollReady⟩

/-- What cancelling a task does to a waker. -/
theorem IsMarked.cancel (h : s.IsMarked w x) (handle : Nat) :
    let y := if w ∈ s.wakesOf (.cancel handle) then x.woken else x
    (s.cancel handle).store.IsMarked w (if s.pending? handle = some w then y.woken else y) ∧
      (s.cancel handle).trace.firings x.data =
        (if w ∈ s.wakesOf (.cancel handle) ∧ x.isArmed then [pollMaybeReady] else []) ++
          if s.pending? handle = some w ∧ y.isArmed then [pollReady] else [] := by
  cases htask : s.tasks.get? handle with
  | none =>
    simp only [Store.cancel, pending?, wakesOf, htask]
    exact ⟨by simpa using h, by simp [Trace.firings, Observation.firing?]⟩
  | some task =>
    have hpending : s.pending? handle = task.pending := by simp [pending?, htask]
    have hset : (s.setTask handle { task with
        future := none, output := none, cancelled := true, pending := none }).IsMarked w x := h
    obtain ⟨hdrop, hfire⟩ := hset.dropFuture? handle task
    have hsame : (if w ∈ wakesOfDrop task then x.woken else x).data = x.data := by
      split <;> simp
    have hrelease := hdrop.release task.pending
    rw [hsame] at hrelease
    rw [cancel_live htask, hpending]
    simp only [wakesOf, htask, Trace.firings_append, hfire, hrelease.2]
    exact ⟨hrelease.1, by simp [Trace.firings, Observation.firing?]⟩

theorem Silent.cancel (h : s.Silent data) (handle : Nat) :
    (s.cancel handle).store.Silent data ∧ (s.cancel handle).trace.firings data = [] := by
  cases htask : s.tasks.get? handle with
  | none =>
    simp only [Store.cancel, htask]
    exact ⟨h, rfl⟩
  | some task =>
    have hset : (s.setTask handle { task with
        future := none, output := none, cancelled := true, pending := none }).Silent data := h
    obtain ⟨hdrop, hfire⟩ := hset.dropFuture? handle task
    obtain ⟨hstore, htrace⟩ := hdrop.release task.pending
    rw [cancel_live htask]
    refine ⟨hstore, ?_⟩
    simp only [Trace.firings_append, hfire, htrace]
    rfl

/-- What freeing a task does to a waker. -/
theorem IsMarked.free (h : s.IsMarked w x) (handle : Nat) :
    let y := if s.pending? handle = some w then x.disarm else x
    (s.free handle).store.IsMarked w (if w ∈ s.wakesOf (.free handle) then y.woken else y) ∧
      (s.free handle).trace.firings x.data =
        if w ∈ s.wakesOf (.free handle) ∧ y.isArmed then [pollMaybeReady] else [] := by
  cases htask : s.tasks.get? handle with
  | none =>
    simp only [Store.free, pending?, wakesOf, htask]
    exact ⟨by simpa using h, by simp [Trace.firings, Observation.firing?]⟩
  | some task =>
    have hpending : s.pending? handle = task.pending := by simp [pending?, htask]
    have herase : ({ s with tasks := s.tasks.erase handle } : Store).IsMarked w x := h
    have hdrop := (herase.disarm? task.pending).dropFuture? handle task
    have hsame : (if task.pending = some w then x.disarm else x).data = x.data := by
      split <;> rfl
    rw [hsame] at hdrop
    rw [hpending]
    simp only [Store.free, wakesOf, htask]
    exact hdrop

theorem Silent.free (h : s.Silent data) (handle : Nat) :
    (s.free handle).store.Silent data ∧ (s.free handle).trace.firings data = [] := by
  cases htask : s.tasks.get? handle with
  | none =>
    simp only [Store.free, htask]
    exact ⟨h, rfl⟩
  | some task =>
    have herase : ({ s with tasks := s.tasks.erase handle } : Store).Silent data := h
    simp only [Store.free, htask]
    exact (herase.disarm? task.pending).dropFuture? handle task

/-- Collecting an outcome takes it from the task, if there is one to take. -/
theorem complete_store (s : Store) (flavour : Flavour) (handle : Nat) :
    (s.complete flavour handle).2 = s ∨ ∃ task, s.tasks.get? handle = some task ∧
      (s.complete flavour handle).2 = s.setTask handle { task with output := none } := by
  have htaken : (s.complete flavour handle).2 = (s.takeOutput handle).2 := by
    unfold complete
    split
    · rename_i hout
      rw [hout]
      split <;> rfl
    · rfl
  rw [htaken]
  unfold takeOutput
  cases htask : s.tasks.get? handle with
  | none => exact .inl rfl
  | some task =>
    by_cases hcancelled : task.cancelled = true
    · exact .inl (by simp only [hcancelled, if_true])
    · simp only [if_neg hcancelled]
      cases task.output with
      | none => exact .inl rfl
      | some result =>
        refine .inr ⟨task, rfl, ?_⟩
        rcases result with (bytes | message) | value <;> rfl

theorem complete_wakers (s : Store) (flavour : Flavour) (handle : Nat) :
    (s.complete flavour handle).2.wakers = s.wakers := by
  obtain hsame | ⟨task, _, hset⟩ := s.complete_store flavour handle
  · rw [hsame]
  · rw [hset]
    rfl

/-- What an operation does to a waker that is not made by it. -/
theorem IsMarked.perform (h : s.IsMarked w x) {op : Operation}
    (hop : ∀ handle, op ≠ .poll handle x.data) :
    let y := if s.disarmedBy op = some w then x.disarm else x
    let z := if w ∈ s.wakesOf op then y.woken else y
    (s.perform op).store.IsMarked w (if s.releasedBy op = some w then z.woken else z) ∧
      (s.perform op).trace.firings x.data =
        (if w ∈ s.wakesOf op ∧ y.isArmed then [pollMaybeReady] else []) ++
          if s.releasedBy op = some w ∧ z.isArmed then [pollReady] else [] := by
  cases op with
  | spawn future =>
    have hspawn : (s.perform (.spawn future)).store.IsMarked w x := h
    exact ⟨by simpa [disarmedBy, releasedBy, wakesOf] using hspawn,
      by simp [Store.perform, Step.map, spawn, releasedBy, wakesOf]⟩
  | poll handle data =>
    have hdata : data ≠ x.data := fun heq => hop handle (heq ▸ rfl)
    obtain ⟨hstore, htrace⟩ := h.poll hdata handle
    exact ⟨hstore, htrace.trans (List.append_nil _).symm⟩
  | cancel handle => simpa [Store.perform, Step.map, disarmedBy, releasedBy] using h.cancel handle
  | free handle =>
    obtain ⟨hstore, htrace⟩ := h.free handle
    exact ⟨hstore, htrace.trans (List.append_nil _).symm⟩
  | complete flavour handle =>
    have hcomplete : (s.perform (.complete flavour handle)).store.IsMarked w x := by
      unfold IsMarked Store.perform
      simp only [complete_wakers]
      exact h
    exact ⟨by simpa [disarmedBy, releasedBy, wakesOf] using hcomplete,
      by simp [Store.perform, releasedBy, wakesOf]⟩
  | wake v =>
    have hwake : (s.perform (.wake v)).store.IsMarked w (if v = w then x.woken else x) := by
      have htouch := h.touch (v := v) Waker.woken_data
      rwa [← wakeWith_store s v pollMaybeReady] at htouch
    have hfire : (s.perform (.wake v)).trace.firings x.data =
        if v = w ∧ x.isArmed then [pollMaybeReady] else [] := wakeWith_firings h v pollMaybeReady
    simp only [disarmedBy, releasedBy, wakesOf, hfire, List.mem_singleton, eq_comm (a := w)]
    exact ⟨by simpa using hwake, by simp⟩

/-- An operation does not invoke the continuation for data whose wakers are
spent, unless it polls with that data again. -/
theorem Silent.perform (h : s.Silent data) {op : Operation}
    (hop : ∀ handle, op ≠ .poll handle data) :
    (s.perform op).store.Silent data ∧ (s.perform op).trace.firings data = [] := by
  cases op with
  | spawn future => exact ⟨h, rfl⟩
  | poll handle d => exact h.poll (fun heq => hop handle (heq ▸ rfl)) handle
  | cancel handle => exact h.cancel handle
  | free handle => exact h.free handle
  | complete flavour handle =>
    refine ⟨?_, rfl⟩
    unfold Silent Store.perform
    simp only [complete_wakers]
    exact h
  | wake v => exact ⟨h.wakeWith v pollMaybeReady, h.wakeWith_firings v pollMaybeReady⟩

end Store
end CoreBridge.Task
