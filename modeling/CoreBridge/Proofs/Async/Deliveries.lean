import CoreBridge.Proofs.Async.Steps

/-!
# What a session shows of its polls

The wake registry keeps at most a channel or a mark for the id of a poll. Of a
trace of the core only the continuations invoked for that id bear on it
(`view_deliverAll`), and what a session shows is the trace of the core with what
its registry makes of each continuation in between (`WakeRegistry.shown`). The
core itself shows no poll and no release of a task, so those that a trace shows
are the host's: `lastPoll?` reads off it which poll of a task was the last one.
-/
namespace CoreBridge

/-! ## Polls in a trace -/

/-- The warning about a continuation for a poll that nobody waits for or has abandoned. -/
def unknownPoll (id : Nat) : Observation := .log .warn s!"Continuation for unknown poll {id}"

namespace Observation

/-- The last poll of a task that has not been freed since, where it was `last` before. -/
def follow (task : Nat) (last : Option Nat) : Observation → Option Nat
  | .polled t id _ => if t = task then some id else last
  | .freeTask t => if t = task then none else last
  | _ => last

/-- The id that a poll was made under. -/
def polledId? : Observation → Option Nat
  | .polled _ id _ => some id
  | _ => none

/-- Whether an observation shows no poll, no release of a task and no continuation
for an unknown poll. -/
def IsQuiet : Observation → Prop
  | .polled .. | .freeTask _ => False
  | .log level text => ∀ id, .log level text ≠ unknownPoll id
  | _ => True

/-- Whether an observation shows nothing of polls and their continuations. -/
def IsIdle (o : Observation) : Prop := o.IsQuiet ∧ ∀ id, o.firing? id = none

theorem isIdle_log {level : Level} (h : level ≠ .warn) (text : String) : (log level text).IsIdle :=
  ⟨fun _ heq => h (Observation.log.inj heq).1, fun _ => rfl⟩

variable {o : Observation}

theorem IsQuiet.follow (h : o.IsQuiet) (task : Nat) (last : Option Nat) :
    o.follow task last = last := by
  cases o <;> first | rfl | exact h.elim

theorem IsQuiet.polledId? (h : o.IsQuiet) : o.polledId? = none := by
  cases o <;> first | rfl | exact h.elim

theorem IsQuiet.ne_unknownPoll (h : o.IsQuiet) (id : Nat) : o ≠ unknownPoll id := by
  rintro rfl
  exact h id rfl

end Observation

namespace Trace

/-- The last poll of a task after a trace, where it was `last` before. -/
def follow (task : Nat) (last : Option Nat) (trace : Trace) : Option Nat :=
  trace.foldl (fun last o => o.follow task last) last

/-- The last poll of a task, unless it has been freed since. -/
def lastPoll? (task : Nat) (trace : Trace) : Option Nat := follow task none trace

/-- The ids that polls were made under, in order. -/
def polledIds (trace : Trace) : List Nat := trace.filterMap (·.polledId?)

/-- Whether a trace shows no poll, no release of a task and no continuation for an
unknown poll. -/
def IsQuiet (trace : Trace) : Prop := ∀ o ∈ trace, o.IsQuiet

/-- Whether a trace shows nothing of polls and their continuations. -/
def IsIdle (trace : Trace) : Prop := ∀ o ∈ trace, o.IsIdle

variable {trace first second : Trace}

theorem follow_append (task : Nat) (last : Option Nat) (first second : Trace) :
    follow task last (first ++ second) = follow task (follow task last first) second :=
  List.foldl_append

theorem lastPoll?_append (task : Nat) (first second : Trace) :
    lastPoll? task (first ++ second) = follow task (lastPoll? task first) second :=
  follow_append task none first second

theorem polledIds_append (first second : Trace) :
    polledIds (first ++ second) = polledIds first ++ polledIds second := List.filterMap_append

theorem firings_cons (id : Nat) (o : Observation) (trace : Trace) :
    firings id (o :: trace) = (o.firing? id).toList ++ firings id trace := by
  unfold firings
  cases h : o.firing? id <;> simp [h]

theorem isQuiet_nil : IsQuiet [] := List.forall_mem_nil _

theorem IsQuiet.append (hfirst : first.IsQuiet) (hsecond : second.IsQuiet) :
    (first ++ second).IsQuiet := List.forall_mem_append.2 ⟨hfirst, hsecond⟩

theorem isQuiet_singleton {o : Observation} (h : o.IsQuiet) : IsQuiet [o] :=
  List.forall_mem_singleton.2 h

theorem IsQuiet.follow (h : trace.IsQuiet) (task : Nat) (last : Option Nat) :
    Trace.follow task last trace = last := by
  induction trace generalizing last with
  | nil => rfl
  | cons o trace ih =>
    obtain ⟨ho, htrace⟩ := List.forall_mem_cons.1 h
    exact (ih htrace _).trans (ho.follow task last)

theorem IsQuiet.polledIds (h : trace.IsQuiet) : trace.polledIds = [] :=
  List.filterMap_eq_nil_iff.2 fun o ho => (h o ho).polledId?

theorem IsQuiet.not_mem_unknownPoll (h : trace.IsQuiet) (id : Nat) : unknownPoll id ∉ trace :=
  fun hmem => (h _ hmem).ne_unknownPoll id rfl

theorem isIdle_nil : IsIdle [] := List.forall_mem_nil _

theorem isIdle_singleton {o : Observation} (h : o.IsIdle) : IsIdle [o] :=
  List.forall_mem_singleton.2 h

theorem IsIdle.append (hfirst : first.IsIdle) (hsecond : second.IsIdle) :
    (first ++ second).IsIdle := List.forall_mem_append.2 ⟨hfirst, hsecond⟩

theorem IsIdle.isQuiet (h : trace.IsIdle) : trace.IsQuiet := fun o ho => (h o ho).1

theorem IsIdle.firings (h : trace.IsIdle) (id : Nat) : trace.firings id = [] :=
  List.filterMap_eq_nil_iff.2 fun o ho => (h o ho).2 id

end Trace

/-! ## What the core shows -/

namespace Task.Store

theorem isQuiet_wakeWith (s : Store) (waker : Nat) (result : Int) :
    (s.wakeWith waker result).trace.IsQuiet := by
  unfold wakeWith
  cases s.wakers[waker]? with
  | none => exact Trace.isQuiet_nil
  | some w =>
    dsimp only
    split
    · exact Trace.isQuiet_singleton trivial
    · exact Trace.isQuiet_nil

theorem isQuiet_wakeAll (s : Store) (own : Array Nat) (refs : List WakerRef) :
    (s.wakeAll own refs).trace.IsQuiet := by
  induction refs generalizing s with
  | nil => exact Trace.isQuiet_nil
  | cons ref refs ih =>
    rw [wakeAll_cons]
    cases ref.number? own with
    | none => exact ih s
    | some v => exact (s.isQuiet_wakeWith v pollMaybeReady).append (ih _)

theorem isQuiet_dropFuture (s : Store) (handle : Nat) (own : Array Nat)
    (future : Future TaskResult) : (s.dropFuture handle own future).trace.IsQuiet :=
  List.forall_mem_cons.2 ⟨trivial, s.isQuiet_wakeAll own _⟩

theorem isQuiet_dropFuture? (s : Store) (handle : Nat) (own : Array Nat)
    (future : Option (Future TaskResult)) : (s.dropFuture? handle own future).trace.IsQuiet := by
  cases future with
  | none => exact Trace.isQuiet_nil
  | some future => exact s.isQuiet_dropFuture handle own future

theorem isQuiet_suspend (s : Store) (handle waker : Nat) (task : LiveTask) :
    (s.suspend handle waker task).trace.IsQuiet := by
  rw [suspend_eq]
  cases s.wakers[waker]? with
  | none => exact Trace.isQuiet_nil
  | some w =>
    dsimp only
    split
    · exact Trace.isQuiet_singleton trivial
    · exact Trace.isQuiet_nil

theorem isQuiet_pollFuture (s : Store) (handle data : Nat) (task : LiveTask)
    (future : Future TaskResult) : (s.pollFuture handle data task future).trace.IsQuiet := by
  unfold pollFuture
  refine Trace.IsQuiet.append (isQuiet_wakeAll _ _ _) ?_
  cases (future.onPoll task.wakers.size).ending with
  | pending => exact isQuiet_suspend _ _ _ _
  | ready result => exact isQuiet_dropFuture _ _ _ _
  | panicked panic => exact isQuiet_dropFuture _ _ _ _

/-- The records about a handle that is not live tell no poll from another. -/
theorem isQuiet_unknownTask (level : Level) {verb : String} (hverb : verb.toList.head? = some 'f')
    (handle : Nat) : (Observation.log level (verb ++ toString handle)).IsQuiet := by
  intro id heq
  have htext := congrArg (fun text => text.toList.head?) (Observation.log.inj heq).2
  have hwarning : (toString "Continuation for unknown poll ").toList.head? = some 'C' := by decide
  simp [hverb, hwarning] at htext

/-- The core itself shows no poll, no release of a task and no warning of the registry. -/
theorem isQuiet_perform (s : Store) (op : Operation) : (s.perform op).trace.IsQuiet := by
  cases op with
  | spawn future => exact Trace.isQuiet_nil
  | complete flavour handle => exact Trace.isQuiet_nil
  | wake waker => exact s.isQuiet_wakeWith waker pollMaybeReady
  | poll handle data =>
    change (s.poll handle data).trace.IsQuiet
    cases htask : s.tasks.get? handle with
    | none =>
      rw [poll_unknown htask]
      exact Trace.isQuiet_singleton (isQuiet_unknownTask _ (by decide) _)
    | some task =>
      rw [poll_live htask]
      cases task.runnable? with
      | none => exact Trace.isQuiet_nil
      | some future => exact isQuiet_pollFuture _ _ _ _ _
  | cancel handle =>
    change (s.cancel handle).trace.IsQuiet
    cases htask : s.tasks.get? handle with
    | none =>
      simp only [cancel, htask]
      exact Trace.isQuiet_singleton (isQuiet_unknownTask _ (by decide) _)
    | some task =>
      rw [cancel_live htask]
      refine ((isQuiet_dropFuture? _ _ _ _).append ?_).append
        (Trace.isQuiet_singleton (Observation.isIdle_log (by decide) _).1)
      cases task.pending with
      | none => exact Trace.isQuiet_nil
      | some waker => exact isQuiet_wakeWith _ _ _
  | free handle =>
    change (s.free handle).trace.IsQuiet
    cases htask : s.tasks.get? handle with
    | none =>
      simp only [free, htask]
      exact Trace.isQuiet_singleton (isQuiet_unknownTask _ (by decide) _)
    | some task =>
      simp only [free, htask]
      exact isQuiet_dropFuture? _ _ _ _

end Task.Store

namespace Host

open CoreBridge.Core CoreBridge.Task

/-! ## What the registry keeps of a poll -/

namespace WakeRegistry

/-- The channel that is kept for a poll, and whether the poll is abandoned. -/
def view (r : WakeRegistry) (id : Nat) : Option Channel × Bool :=
  (r.channels.get? id, decide (id ∈ r.abandoned))

/-- What a continuation makes of what was kept for its poll. -/
def arrive : Option Channel × Bool → Int → Option Channel × Bool
  | (some (.awaiting ..), isAbandoned), result => (some (.delivered result), isAbandoned)
  | (channel, _), _ => (channel, false)

/-- Whether a continuation for this poll would be delivered or clear its mark. -/
def Expects (r : WakeRegistry) (id : Nat) : Prop :=
  (∃ call suspended, r.channels.get? id = some (.awaiting call suspended)) ∨ id ∈ r.abandoned

/-- What becomes of the registry where a core shows this, and what that shows. -/
def meet (r : WakeRegistry) : Observation → WakeRegistry × Trace
  | .fired id result => r.deliver id result
  | _ => (r, [])

/-- What a host shows that takes over what happened in its core: the continuations
with what is made of each. -/
def shown (r : WakeRegistry) : Trace → Trace
  | [] => []
  | o :: trace => o :: ((r.meet o).2 ++ (r.meet o).1.shown trace)

variable {r : WakeRegistry} {id : Nat}

theorem view_deliver (r : WakeRegistry) (i : Nat) (result : Int) (id : Nat) :
    (r.deliver i result).1.view id =
      if i = id then arrive (r.view id) result else r.view id := by
  unfold WakeRegistry.deliver view
  by_cases hi : i = id
  · subst hi
    cases hget : r.channels.get? i with
    | none => by_cases hmark : i ∈ r.abandoned <;> simp [arrive, hget, hmark]
    | some channel =>
      cases channel with
      | awaiting call suspended => simp [arrive]
      | delivered first => by_cases hmark : i ∈ r.abandoned <;> simp [arrive, hget, hmark]
  · have hkeep : (id ∈ r.abandoned.filter (· ≠ i)) ↔ id ∈ r.abandoned := by
      simp [Ne.symm hi]
    cases hget : r.channels.get? i with
    | none => by_cases hmark : i ∈ r.abandoned <;> simp [hi, hmark, Ne.symm hi]
    | some channel =>
      cases channel with
      | awaiting call suspended => simp [hi]
      | delivered first => by_cases hmark : i ∈ r.abandoned <;> simp [hi, hmark, Ne.symm hi]

theorem view_meet (r : WakeRegistry) (o : Observation) (id : Nat) :
    (r.meet o).1.view id = (o.firing? id).toList.foldl arrive (r.view id) := by
  cases o with
  | fired i result =>
    rw [meet, view_deliver, Observation.firing?]
    split <;> rfl
  | _ => rfl

theorem deliverAll_cons (r : WakeRegistry) (o : Observation) (trace : Trace) :
    r.deliverAll (o :: trace) = (r.meet o).1.deliverAll trace := by cases o <;> rfl

theorem deliverAll_append (r : WakeRegistry) (first second : Trace) :
    r.deliverAll (first ++ second) = (r.deliverAll first).deliverAll second := by
  induction first generalizing r with
  | nil => rfl
  | cons o first ih => rw [List.cons_append, deliverAll_cons, deliverAll_cons, ih]

/-- Of a trace only the continuations for a poll bear on what is kept of it. -/
theorem view_deliverAll (r : WakeRegistry) (trace : Trace) (id : Nat) :
    (r.deliverAll trace).view id = (trace.firings id).foldl arrive (r.view id) := by
  induction trace generalizing r with
  | nil => rfl
  | cons o trace ih =>
    rw [deliverAll_cons, ih, view_meet, Trace.firings_cons, List.foldl_append]

theorem expects_congr {r' : WakeRegistry} (h : r'.view id = r.view id) :
    r'.Expects id ↔ r.Expects id := by
  obtain ⟨hchannel, hmark⟩ := Prod.mk.inj h
  rw [Expects, Expects, hchannel, decide_eq_decide.1 hmark]

theorem shown_append (r : WakeRegistry) (first second : Trace) :
    r.shown (first ++ second) = r.shown first ++ (r.deliverAll first).shown second := by
  induction first generalizing r with
  | nil => rfl
  | cons o first ih =>
    simp only [List.cons_append, shown, deliverAll_cons, ih, List.append_assoc]

theorem isIdle_deliver (h : r.Expects id) (result : Int) : (r.deliver id result).2.IsIdle := by
  have hmark (hnone : ∀ call suspended, r.channels.get? id ≠ some (.awaiting call suspended)) :
      id ∈ r.abandoned := by
    obtain ⟨call, suspended, hget⟩ | hmark := h
    · exact absurd hget (hnone call suspended)
    · exact hmark
  unfold WakeRegistry.deliver
  split
  · split
    · exact Trace.isIdle_singleton ⟨trivial, fun _ => rfl⟩
    · exact Trace.isIdle_nil
  · rename_i hnone
    rw [if_pos (hmark fun call suspended hget => hnone call suspended hget)]
    exact Trace.isIdle_singleton (Observation.isIdle_log (by decide) _)

theorem firings_meet (r : WakeRegistry) (o : Observation) (id : Nat) :
    (r.meet o).2.firings id = [] := by
  cases o with
  | fired i result =>
    unfold meet WakeRegistry.deliver
    dsimp only
    split
    · split <;> rfl
    · split <;> rfl
  | _ => rfl

theorem firings_shown (r : WakeRegistry) (trace : Trace) (id : Nat) :
    (r.shown trace).firings id = trace.firings id := by
  induction trace generalizing r with
  | nil => rfl
  | cons o trace ih =>
    rw [shown, Trace.firings_cons, Trace.firings_append, firings_meet, ih, List.nil_append,
      ← Trace.firings_cons]

/-- Continuations that come once each and are expected are shown without a warning. -/
theorem isQuiet_shown {trace : Trace} (htrace : trace.IsQuiet)
    (h : ∀ id, trace.firings id = [] ∨ (∃ result, trace.firings id = [result]) ∧ r.Expects id) :
    (r.shown trace).IsQuiet := by
  induction trace generalizing r with
  | nil => exact Trace.isQuiet_nil
  | cons o trace ih =>
    obtain ⟨ho, htrace⟩ := List.forall_mem_cons.1 htrace
    have hmeet : (r.meet o).2.IsQuiet := by
      cases o with
      | fired i result =>
        have hself : Trace.firings i (.fired i result :: trace) ≠ [] := by
          simp [Trace.firings_cons, Observation.firing?]
        exact (isIdle_deliver ((h i).resolve_left hself).2 result).isQuiet
      | _ => exact Trace.isQuiet_nil
    refine List.forall_mem_cons.2 ⟨ho, hmeet.append (ih htrace fun id => ?_)⟩
    have hid := h id
    rw [Trace.firings_cons] at hid
    cases hfiring : o.firing? id with
    | none =>
      -- What is kept of a poll is untouched by what is shown of others.
      have hview := view_meet r o id
      rw [hfiring] at hid hview
      rw [expects_congr hview]
      exact hid
    | some result =>
      obtain ⟨hrest, -⟩ : Trace.firings id trace = [] ∧ r.Expects id := by simpa [hfiring] using hid
      exact .inl hrest

end WakeRegistry

/-! ## Steps of a host -/

theorem isIdle_releaseWith (replies : List CallStatus) (buffer : Buffer) :
    (releaseWith replies buffer).1.IsIdle := by
  induction replies generalizing buffer with
  | nil =>
    cases buffer with
    | null => exact Trace.isIdle_nil
    | _ => exact Trace.isIdle_singleton ⟨trivial, fun _ => rfl⟩
  | cons status replies ih =>
    cases buffer with
    | null => exact Trace.isIdle_nil
    | _ =>
      refine List.forall_mem_cons.2 ⟨⟨trivial, fun _ => rfl⟩, (ih status.payload).append ?_⟩
      -- Only what went wrong is logged.
      split
      · exact Trace.isIdle_nil
      · exact Trace.isIdle_singleton (Observation.isIdle_log (by decide) _)

namespace HostM

variable {σ α ε : Type}

theorem absorb_trace (trace : Trace) (s : Session σ) :
    ((absorb trace).run s).2.trace = s.trace ++ s.wakes.shown trace := by
  induction trace generalizing s with
  | nil => exact (List.append_nil _).symm
  | cons o trace ih =>
    have hstep : ((absorb (o :: trace)).run s).2.trace = ((absorb trace).run { s with
        wakes := (s.wakes.meet o).1
        trace := s.trace ++ o :: (s.wakes.meet o).2 }).2.trace := by
      cases o with
      | fired id result =>
        rw [List.append_cons]
        rfl
      | _ => rfl
    rw [hstep, ih, WakeRegistry.shown, List.append_assoc]
    rfl

theorem call_trace (transition : σ → Reply α × σ) (shown : α → Trace) (s : Session σ) :
    ∃ rest : Trace, rest.IsIdle ∧ ((call transition shown).run s).2.trace =
      s.trace ++ s.wakes.shown (transition s.core).1.trace ++ shown (transition s.core).1.value ++
        rest := by
  have habsorb := absorb_trace (transition s.core).1.trace { s with core := (transition s.core).2 }
  refine ⟨_, isIdle_releaseWith ((enter transition).run s).2.freeReplies
    (transition s.core).1.status.payload, ?_⟩
  rw [← habsorb]
  rfl

theorem callFallible_trace (decode : Bytes → Except Wire.DecodeError ε)
    (transition : σ → Reply α × σ) (s : Session σ) :
    ∃ rest : Trace, rest.IsIdle ∧ ((callFallible decode transition).run s).2.trace =
      s.trace ++ s.wakes.shown (transition s.core).1.trace ++ rest := by
  have habsorb := absorb_trace (transition s.core).1.trace { s with core := (transition s.core).2 }
  refine ⟨_, isIdle_releaseWith ((enter transition).run s).2.freeReplies
    (transition s.core).1.status.payload, ?_⟩
  rw [← habsorb]
  rfl

end HostM
end Host
end CoreBridge
