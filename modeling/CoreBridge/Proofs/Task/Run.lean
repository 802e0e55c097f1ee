import CoreBridge.Task.Store
import Mathlib.Tactic

/-!
# Runs over the task store

A run is a list of operations, performed one after the other on a store. The
data that a poll hands over for its continuation is opaque to the store: a run
with other data is the same run with the data replaced in what it shows
(`traceOf_relabel`). So the polls of a run may be told apart by numbering them,
and what the numbered run shows of a number is what happened on account of that
poll (`traceOf_numbered`).
-/
namespace CoreBridge

namespace Observation

/-- The result with which the continuation is invoked, if it is for this data. -/
def firing? (data : Nat) : Observation → Option Int
  | .fired d result => if d = data then some result else none
  | _ => none

/-- The observation with the data of continuations replaced. -/
def relabel (f : Nat → Nat) : Observation → Observation
  | .fired data result => .fired (f data) result
  | o => o

end Observation

namespace Trace

/-- The results with which the continuation is invoked for this data, in order. -/
def firings (data : Nat) (trace : Trace) : List Int := trace.filterMap (·.firing? data)

@[simp] theorem firings_nil (data : Nat) : firings data [] = [] := rfl

@[simp] theorem firings_append (data : Nat) (first second : Trace) :
    firings data (first ++ second) = firings data first ++ firings data second :=
  List.filterMap_append

/-- The trace with the data of continuations replaced. -/
def relabel (f : Nat → Nat) (trace : Trace) : Trace := trace.map (·.relabel f)

@[simp] theorem relabel_nil (f : Nat → Nat) : relabel f [] = [] := rfl

@[simp] theorem relabel_append (f : Nat → Nat) (first second : Trace) :
    relabel f (first ++ second) = relabel f first ++ relabel f second := List.map_append

end Trace

namespace Task

/-- What is done with a store from outside. -/
inductive Operation where
  | spawn (future : Future TaskResult)
  | poll (handle data : Nat)
  | cancel (handle : Nat)
  | free (handle : Nat)
  | complete (flavour : Flavour) (handle : Nat)
  /-- Whoever holds a waker that a poll handed out wakes it, by reference or by value. -/
  | wake (waker : Nat)

/-- The operation with the data for the continuation replaced. -/
def Operation.relabel (f : Nat → Nat) : Operation → Operation
  | .poll handle data => .poll handle (f data)
  | op => op

namespace Step

variable {α β : Type}

def map (f : α → β) (step : Step α) : Step β := ⟨f step.value, step.store, step.trace⟩

end Step

namespace Store

/-- Performs an operation; the answer is that of a poll. -/
def perform (s : Store) : Operation → Step (Option Int)
  | .spawn future => (s.spawn future).map fun _ => none
  | .poll handle data => (s.poll handle data).map some
  | .cancel handle => (s.cancel handle).map fun _ => none
  | .free handle => (s.free handle).map fun _ => none
  | .complete flavour handle => ⟨none, (s.complete flavour handle).2, []⟩
  | .wake waker => (s.wake waker).map fun _ => none

/-- The store after a run. -/
def after (s : Store) : List Operation → Store
  | [] => s
  | op :: ops => (s.perform op).store.after ops

/-- What happens in a run. -/
def traceOf (s : Store) : List Operation → Trace
  | [] => []
  | op :: ops => (s.perform op).trace ++ (s.perform op).store.traceOf ops

theorem after_append (s : Store) (first second : List Operation) :
    s.after (first ++ second) = (s.after first).after second := by
  induction first generalizing s with
  | nil => rfl
  | cons op ops ih => exact ih (s.perform op).store

theorem traceOf_append (s : Store) (first second : List Operation) :
    s.traceOf (first ++ second) = s.traceOf first ++ (s.after first).traceOf second := by
  induction first generalizing s with
  | nil => rfl
  | cons op ops ih => simp only [List.cons_append, traceOf, after, ih, List.append_assoc]

/-! ## Replacing the data of continuations -/

/-- The store with the data for the continuation replaced in every waker. -/
def relabel (f : Nat → Nat) (s : Store) : Store :=
  { s with wakers := s.wakers.map fun w => { w with data := f w.data } }

end Store

/-- The step with the data for the continuation replaced. -/
def Step.relabel {α : Type} (f : Nat → Nat) (step : Step α) : Step α :=
  ⟨step.value, step.store.relabel f, step.trace.relabel f⟩

namespace Store

variable (f : Nat → Nat) (s : Store)

@[simp] theorem relabel_empty : ({} : Store).relabel f = {} := by simp [relabel]

theorem relabel_wakeWith (waker : Nat) (result : Int) :
    (s.relabel f).wakeWith waker result = (s.wakeWith waker result).relabel f := by
  unfold wakeWith
  simp only [relabel, Array.getElem?_map]
  cases hw : s.wakers[waker]? with
  | none => rfl
  | some w =>
    obtain ⟨data, state⟩ := w
    cases state <;> simp [Step.relabel, relabel, Waker.woken, Waker.isArmed, Trace.relabel,
      Observation.relabel, Array.map_setIfInBounds]

theorem relabel_wakeAll (own : Array Nat) (refs : List WakerRef) :
    (s.relabel f).wakeAll own refs = (s.wakeAll own refs).relabel f := by
  induction refs generalizing s with
  | nil => rfl
  | cons ref refs ih =>
    unfold wakeAll
    cases href : ref.number? own with
    | none => simp only [ih, Step.relabel, Trace.relabel_append, Trace.relabel_nil]
    | some waker =>
      simp only [wake, relabel_wakeWith, Step.relabel, ih, Trace.relabel_append]

theorem map_modify {α : Type} (g h : α → α) (hg : ∀ a, g (h a) = h (g a)) (xs : Array α)
    (i : Nat) : (xs.map g).modify i h = (xs.modify i h).map g := by
  apply Array.ext_getElem?
  intro j
  by_cases hij : i = j
  · cases hj : xs[j]? <;> simp [Array.getElem?_modify, hij, hj, hg]
  · simp [Array.getElem?_modify, hij]

theorem relabel_disarm (waker : Nat) :
    (s.relabel f).disarm waker = (s.disarm waker).relabel f := by
  simp only [disarm, relabel]
  rw [map_modify (fun w => { w with data := f w.data }) Waker.disarm fun _ => rfl]

theorem relabel_disarm? (waker : Option Nat) :
    (s.relabel f).disarm? waker = (s.disarm? waker).relabel f := by
  cases waker with
  | none => rfl
  | some waker => exact relabel_disarm f s waker

theorem relabel_setTask (handle : Nat) (task : LiveTask) :
    (s.relabel f).setTask handle task = (s.setTask handle task).relabel f := rfl

theorem relabel_dropFuture (handle : Nat) (own : Array Nat) (future : Future TaskResult) :
    (s.relabel f).dropFuture handle own future = (s.dropFuture handle own future).relabel f := by
  simp only [dropFuture, relabel_wakeAll]
  rfl

theorem relabel_dropFuture? (handle : Nat) (own : Array Nat)
    (future : Option (Future TaskResult)) :
    (s.relabel f).dropFuture? handle own future = (s.dropFuture? handle own future).relabel f := by
  cases future with
  | none => rfl
  | some future => exact relabel_dropFuture f s handle own future

theorem relabel_suspend (handle waker : Nat) (task : LiveTask) :
    (s.relabel f).suspend handle waker task = (s.suspend handle waker task).relabel f := by
  simp only [suspend, relabel_setTask]
  generalize s.setTask handle { task with pending := some waker } = s
  simp only [relabel, Array.getElem?_map]
  cases hw : s.wakers[waker]? with
  | none => rfl
  | some w =>
    obtain ⟨data, state⟩ := w
    cases state <;> simp [Step.relabel, relabel, Waker.arm, Waker.isDue, Trace.relabel,
      Observation.relabel, Array.map_setIfInBounds]

theorem relabel_finish (handle waker : Nat) (task : LiveTask) (future : Future TaskResult)
    (result : TaskResult) : (s.relabel f).finish handle waker task future result =
      (s.finish handle waker task future result).relabel f := by
  simp only [finish, relabel_disarm, relabel_setTask, relabel_dropFuture]
  rfl

theorem relabel_settle (handle waker : Nat) (task : LiveTask) (future : Future TaskResult)
    (ending : Ending TaskResult) : (s.relabel f).settle handle waker task future ending =
      (s.settle handle waker task future ending).relabel f := by
  cases ending with
  | pending => exact relabel_suspend f s handle waker task
  | ready result => exact relabel_finish f s handle waker task future result
  | panicked panic => exact relabel_finish f s handle waker task future _

theorem relabel_runTurn (data : Nat) (task : LiveTask) (future : Future TaskResult) :
    (s.relabel f).runTurn (f data) task future = (s.runTurn data task future).relabel f := by
  simp only [runTurn]
  have hpush : ({ s.relabel f with
      wakers := (s.relabel f).wakers.push { data := f data }
      handedOn := if (future.onPoll task.wakers.size).handsOn then
        (s.relabel f).handedOn.push (s.relabel f).wakers.size else (s.relabel f).handedOn }) =
      ({ s with
        wakers := s.wakers.push { data }
        handedOn := if (future.onPoll task.wakers.size).handsOn then
          s.handedOn.push s.wakers.size else s.handedOn } : Store).relabel f := by
    simp [relabel]
  rw [hpush, relabel_wakeAll]
  simp [Step.relabel, relabel]

theorem relabel_pollFuture (handle data : Nat) (task : LiveTask) (future : Future TaskResult) :
    (s.relabel f).pollFuture handle (f data) task future =
      (s.pollFuture handle data task future).relabel f := by
  have hsize : (s.relabel f).wakers.size = s.wakers.size := by simp [relabel]
  simp only [pollFuture, relabel_runTurn, hsize, Step.relabel, relabel_settle,
    Trace.relabel_append]

theorem relabel_poll (handle data : Nat) :
    (s.relabel f).poll handle (f data) = (s.poll handle data).relabel f := by
  have htasks : (s.relabel f).tasks = s.tasks := rfl
  unfold poll
  rw [htasks]
  cases s.tasks.get? handle with
  | none => rfl
  | some task =>
    simp only [supersede, relabel_disarm?, relabel_setTask]
    cases task.runnable? with
    | none => rfl
    | some future => exact relabel_pollFuture f _ handle data _ future

theorem relabel_cancel (handle : Nat) :
    (s.relabel f).cancel handle = (s.cancel handle).relabel f := by
  have htasks : (s.relabel f).tasks = s.tasks := rfl
  unfold cancel
  rw [htasks]
  cases s.tasks.get? handle with
  | none => rfl
  | some task =>
    simp only [relabel_setTask, relabel_dropFuture?, Step.relabel]
    cases task.pending with
    | none => simp [Trace.relabel, Observation.relabel]
    | some waker => simp [relabel_wakeWith, Step.relabel, Trace.relabel, Observation.relabel]

theorem relabel_free (handle : Nat) : (s.relabel f).free handle = (s.free handle).relabel f := by
  have htasks : (s.relabel f).tasks = s.tasks := rfl
  unfold free
  rw [htasks]
  cases s.tasks.get? handle with
  | none => rfl
  | some task =>
    have herase : ({ s.relabel f with tasks := s.tasks.erase handle } : Store) =
        ({ s with tasks := s.tasks.erase handle } : Store).relabel f := rfl
    simp only [herase, relabel_disarm?, relabel_dropFuture?]

theorem relabel_complete (flavour : Flavour) (handle : Nat) :
    (s.relabel f).complete flavour handle =
      ((s.complete flavour handle).1, (s.complete flavour handle).2.relabel f) := by
  have htake : (s.relabel f).takeOutput handle =
      ((s.takeOutput handle).1, (s.takeOutput handle).2.relabel f) := by
    have htasks : (s.relabel f).tasks = s.tasks := rfl
    unfold takeOutput
    rw [htasks]
    split
    · rfl
    · split
      · rfl
      · simp only [relabel_setTask]
        split <;> rfl
  unfold complete
  rw [htake]
  rcases s.takeOutput handle with ⟨collected, taken⟩
  cases collected <;> try rfl
  dsimp only
  split <;> rfl

/-- A store never looks at the data that it keeps for the continuation. -/
theorem relabel_perform (op : Operation) :
    (s.relabel f).perform (op.relabel f) = (s.perform op).relabel f := by
  cases op with
  | spawn future => rfl
  | poll handle data => simp only [Operation.relabel, perform, relabel_poll]; rfl
  | cancel handle => simp only [Operation.relabel, perform, relabel_cancel]; rfl
  | free handle => simp only [Operation.relabel, perform, relabel_free]; rfl
  | complete flavour handle => simp only [Operation.relabel, perform, relabel_complete]; rfl
  | wake waker => simp only [Operation.relabel, perform, wake, relabel_wakeWith]; rfl

theorem after_relabel (ops : List Operation) :
    (s.relabel f).after (ops.map (·.relabel f)) = (s.after ops).relabel f := by
  induction ops generalizing s with
  | nil => rfl
  | cons op ops ih => simp only [List.map_cons, after, relabel_perform, Step.relabel, ih]

/-- A run with other data for the continuation shows the same with that data. -/
theorem traceOf_relabel (ops : List Operation) :
    (s.relabel f).traceOf (ops.map (·.relabel f)) = (s.traceOf ops).relabel f := by
  induction ops generalizing s with
  | nil => rfl
  | cons op ops ih =>
    simp only [List.map_cons, traceOf, relabel_perform, Step.relabel, ih, Trace.relabel_append]

/-! ## Telling the polls of a run apart -/

/-- The run in which every poll hands over its own position. -/
def numbered (ops : List Operation) : List Operation :=
  ops.mapIdx fun i op => op.relabel fun _ => i

/-- What the poll at a position of a run hands over for its continuation. -/
def dataAt (ops : List Operation) (i : Nat) : Nat :=
  match ops[i]? with
  | some (.poll _ data) => data
  | _ => 0

theorem map_relabel_numbered (ops : List Operation) :
    (numbered ops).map (·.relabel (dataAt ops)) = ops := by
  apply List.ext_getElem?
  intro i
  simp only [numbered, List.getElem?_map, List.getElem?_mapIdx]
  cases hop : ops[i]? with
  | none => rfl
  | some op => cases op <;> simp [Operation.relabel, dataAt, hop]

/-- What a run from the empty store shows is what the numbered run shows, with
each number replaced by the data of the poll that it stands for. -/
theorem traceOf_numbered (ops : List Operation) :
    ({} : Store).traceOf ops = (({} : Store).traceOf (numbered ops)).relabel (dataAt ops) := by
  rw [← traceOf_relabel, relabel_empty, map_relabel_numbered]

end Store
end Task
end CoreBridge
