import CoreBridge.Proofs.Async.Tidy

/-!
# Calls step by step

A poll of a call, and its drop, take several steps that enter the core, and whoever
holds a waker may wake it between any two of them. `Progress` says where a call stands
between its steps, of which a poll and a drop of the call are made up
(`Progress.poll_keeps`, `Progress.drop_keeps`). The first one starts the task of the
call, by any code of the core that neither polls nor frees a task (`Operation.Starts`).
-/
namespace CoreBridge.Task

/-- What code of the core may do with the tasks that neither polls nor frees any. -/
inductive Store.Works : Store → Trace → Store → Prop where
  | rest (s : Store) : Works s [] s
  | log {s s' : Store} {first trace : Trace} (hfirst : first.IsIdle) (h : Works s trace s') :
      Works s (first ++ trace) s'
  | perform {s s' : Store} {op : Operation} {trace : Trace} (hop : op.Spares)
      (h : Works (s.perform op).store trace s') : Works s ((s.perform op).trace ++ trace) s'

end CoreBridge.Task

namespace CoreBridge.Host

open CoreBridge.Core CoreBridge.Task

variable {s s' : Session State} {op : Task.Operation}

theorem WakeRegistry.shown_of_isIdle {trace : Trace} (h : trace.IsIdle) (r : WakeRegistry) :
    r.shown trace = trace ∧ r.deliverAll trace = r := by
  induction trace with
  | nil => exact ⟨rfl, rfl⟩
  | cons o trace ih =>
    obtain ⟨ho, htrace⟩ := List.forall_mem_cons.1 h
    have hmeet : r.meet o = (r, []) := by
      cases o with
      | fired id result =>
        have hfired : (Observation.fired id result).firing? id = some result := if_pos rfl
        cases (ho.2 id).symm.trans hfired
      | _ => rfl
    obtain ⟨hshown, hdeliver⟩ := ih htrace
    constructor
    · rw [shown, hmeet, List.nil_append, hshown]
    · rw [deliverAll_cons, hmeet, hdeliver]

/-- An operation starts a task: if it says so, it is one that is new. -/
def Operation.Starts {ε : Type} (op : Operation State ε) : Prop :=
  ∀ core : State, core.tasks.Works (op.start core).1.trace (op.start core).2.tasks ∧
    (Succeeded (op.start core).1.status → core.tasks.nextHandle ≤ (op.start core).1.value ∧
      (op.start core).1.value < (op.start core).2.tasks.nextHandle)

/-- The operation that starts a future whose value and error are written to the wire. -/
theorem starts_lowering (decode : Bytes → Except Wire.DecodeError Wire.Value)
    (future : Future (Except Wire.Value Wire.Value)) : (lowering decode future).Starts := by
  intro core
  have hspawn : Task.Operation.Spares (.spawn future.lowered) := trivial
  refine ⟨.perform hspawn (.rest _), fun _ => ⟨le_rfl, ?_⟩⟩
  exact Nat.lt_succ_self core.tasks.nextHandle

namespace Session

/-- A tidy session undergoes operations that neither poll nor free a task. -/
abbrev Leads : Session State → Session State → Prop :=
  Relation.ReflTransGen fun s s' => s.Tidy ∧ ∃ op : Task.Operation, op.Spares ∧ s.Undergoes s' op

theorem Tidy.of_spares (hs : s.Tidy) (hop : op.Spares) (hu : s.Undergoes s' op) : s'.Tidy :=
  hs.undergoes hu fun _ _ heq => (heq ▸ hop : Task.Operation.Spares (.poll _ _)).elim

/-- What code of the core does with the tasks is taken over one operation after the other. -/
theorem Tidy.leads_works {trace : Trace} {tasks : Store} (hs : s.Tidy)
    (h : s.core.tasks.Works trace tasks) :
    ∃ s', s.Leads s' ∧ s'.Tidy ∧ s'.core.tasks = tasks ∧ s'.wakes = s.wakes.deliverAll trace ∧
      s'.trace = s.trace ++ s.wakes.shown trace := by
  generalize hbefore : s.core.tasks = before at h
  induction h generalizing s with
  | rest => exact ⟨s, .refl, hs, hbefore, rfl, (List.append_nil _).symm⟩
  | @log _ _ first trace hfirst _ ih =>
    let s₁ : Session State := { s with trace := s.trace ++ first }
    obtain ⟨op, hop, hu⟩ : ∃ op : Task.Operation, op.Spares ∧ s.Undergoes s₁ op :=
      hs.idles rfl rfl hfirst rfl
    obtain ⟨s', hleads, hs', htasks, hwakes, hnews⟩ := ih (hs.of_spares hop hu) hbefore
    obtain ⟨hshown, hdeliver⟩ := WakeRegistry.shown_of_isIdle hfirst s.wakes
    refine ⟨s', .head ⟨hs, op, hop, hu⟩ hleads, hs', htasks, ?_, ?_⟩
    · rw [hwakes, WakeRegistry.deliverAll_append, hdeliver]
    · rw [hnews, WakeRegistry.shown_append, hdeliver, hshown, List.append_assoc]
  | @perform before _ op trace hop _ ih =>
    let s₁ : Session State := { s with
      core := { s.core with tasks := (before.perform op).store }
      wakes := s.wakes.deliverAll (before.perform op).trace
      trace := s.trace ++ s.wakes.shown (before.perform op).trace }
    have hu : s.Undergoes s₁ op := by
      refine hs.takes_over hop.polledIds ?_ (before.isQuiet_perform op) ?_ (reports_nil hop) rfl
        Trace.isIdle_nil ?_
      · rw [hbefore]
      · rw [hbefore]
        exact fun _ => rfl
      · rw [List.append_nil, List.append_nil]
    obtain ⟨s', hleads, hs', htasks, hwakes, hnews⟩ := ih (hs.of_spares hop hu) rfl
    refine ⟨s', .head ⟨hs, op, hop, hu⟩ hleads, hs', htasks, ?_, ?_⟩
    · rw [hwakes, WakeRegistry.deliverAll_append]
    · rw [hnews, WakeRegistry.shown_append, List.append_assoc]

/-- The start of a call. -/
theorem Tidy.start {ε : Type} {start : Operation State ε} (hs : s.Tidy) (hstart : start.Starts) :
    ∃ answer s', (HostM.callFallible start.decode start.start).run s = (answer, s') ∧
      s.Leads s' ∧ s'.Tidy ∧ ∀ task, answer = .ok task →
        s.core.tasks.nextHandle ≤ task ∧ task < s'.core.tasks.nextHandle := by
  obtain ⟨hworks, hnew⟩ := hstart s.core
  obtain ⟨s', hcall, hcore, hwakes⟩ := HostM.callFallible_run start.decode start.start s
  obtain ⟨rest, hrest, hnews⟩ := HostM.callFallible_trace start.decode start.start s
  rw [hcall] at hnews
  obtain ⟨s₁, hleads, hs₁, htasks₁, hwakes₁, hnews₁⟩ := hs.leads_works hworks
  obtain ⟨op, hop, hu⟩ : ∃ op : Task.Operation, op.Spares ∧ s₁.Undergoes s' op := by
    refine hs₁.idles ?_ (hwakes.trans hwakes₁.symm) hrest (by rw [hnews, hnews₁])
    rw [hcore, htasks₁]
  refine ⟨_, s', hcall, hleads.tail ⟨hs₁, op, hop, hu⟩, hs₁.of_spares hop hu, ?_⟩
  intro task hok
  obtain ⟨hsucceeded, hclass⟩ | ⟨_, error, hclass⟩ :=
    classify_cases start.decode (start.start s.core).1.status
  · rw [hclass] at hok
    obtain rfl := Except.ok.inj hok
    rw [hcore]
    exact hnew hsucceeded
  · rw [hclass] at hok
    cases hok

end Session

/-! ## The steps of a call -/

/-- Where a call stands between two of its steps. -/
inductive Progress (ε : Type) where
  | stands (call : Call ε)
  /-- The task is to be cancelled and then freed. There may be an outcome already. -/
  | leaving (task : Nat) (outcome : Option (Except (CallError ε) Collection))
  /-- The task is to be freed. -/
  | freeing (task : Nat) (outcome : Option (Except (CallError ε) Collection))

namespace Progress

variable {ε : Type} (op : Operation State ε) (number : Nat)

/-- The call whose task has been freed. -/
def ofOutcome : Option (Except (CallError ε) Collection) → Call ε
  | some result => .ended result
  | none => .dropped

/-- The next step of the call `number`. -/
def step : Progress ε → HostM State (Progress ε)
  | stands .unstarted => do
    match ← HostM.callFallible op.decode op.start with
    | .error error => return stands (.ended (.error error))
    | .ok task => return stands (.driving task (.polling {}))
  | stands (.driving task (.polling report)) => do
    return stands (.driving task (← Drive.poll machine number task report))
  | stands (.driving task (.waiting id report)) => do
    return stands (.driving task (← Drive.receive id report))
  | stands (.driving task (.finished _)) => do
    return freeing task (some (← collect machine op.decode op.flavour task))
  | stands (.driving task (.failed fault)) => return leaving task (some (.error (.fault fault)))
  | stands call => return stands call
  | leaving task outcome => do
    Call.noteFailure task "cancel" (← cancelTask machine task)
    return freeing task outcome
  | freeing task outcome => do
    Call.noteFailure task "free" (← freeTask machine task)
    return stands (ofOutcome outcome)

/-- The first step of dropping a call. -/
def leave : Call ε → HostM State (Progress ε)
  | .unstarted => return stands .dropped
  | .driving task drive => do
    drive.abandon
    return leaving task none
  | call => return stands call

variable {op number} {P : Progress ε → Session State → Prop}

/-- What the steps of a call keep is kept by settling it. -/
theorem settle_keeps
    (hstep : ∀ p s, P p s → P ((p.step op number).run s).1 ((p.step op number).run s).2)
    {task : Nat} {drive : Drive} (h : P (stands (.driving task drive)) s) :
    P (stands ((Call.settle machine op task drive).run s).1)
      ((Call.settle machine op task drive).run s).2 := by
  have hfirst := hstep _ s h
  cases drive with
  | finished report => exact hstep _ _ hfirst
  | failed fault => exact hstep _ _ (hstep _ _ hfirst)
  | _ => exact h

/-- What the steps of a call keep is kept by a whole poll of it. -/
theorem poll_keeps
    (hstep : ∀ p s, P p s → P ((p.step op number).run s).1 ((p.step op number).run s).2)
    (fuel : Nat) {call : Call ε} (h : P (stands call) s) :
    P (stands ((call.poll machine op number fuel).run s).1)
      ((call.poll machine op number fuel).run s).2 := by
  have hdrive (task : Nat) (drive : Drive) (s : Session State)
      (h : P (stands (.driving task drive)) s) :
      P (stands (((Call.driving task drive).poll machine op number fuel).run s).1)
        (((Call.driving task drive).poll machine op number fuel).run s).2 := by
    have hdriven : P (stands (.driving task ((Drive.run machine number task fuel drive).run s).1))
        ((Drive.run machine number task fuel drive).run s).2 := by
      refine Drive.run_keeps (P := fun drive s => P (stands (.driving task drive)) s) ?_ ?_ fuel h
      · exact fun report s hs => hstep _ s hs
      · exact fun id report s hs => hstep _ s hs
    exact settle_keeps hstep hdriven
  cases call with
  | unstarted =>
    have hfirst := hstep _ s h
    rcases hstart : (HostM.callFallible op.decode op.start).run s with ⟨answer, s'⟩
    simp only [step, Call.poll, StateT.run_bind, hstart] at hfirst ⊢
    cases answer with
    | error error => exact hfirst
    | ok task => exact hdrive task _ s' hfirst
  | driving task drive => exact hdrive task drive s h
  | ended result => exact h
  | dropped => exact h

/-- What the steps of a call keep is kept by dropping it. -/
theorem drop_keeps
    (hstep : ∀ p s, P p s → P ((p.step op number).run s).1 ((p.step op number).run s).2)
    (hleave : ∀ call s, P (stands call) s → P ((leave call).run s).1 ((leave call).run s).2)
    {call : Call ε} (h : P (stands call) s) :
    P (stands ((call.drop machine).run s).1) ((call.drop machine).run s).2 := by
  have hfirst := hleave call s h
  cases call with
  | driving task drive => exact hstep _ _ (hstep _ _ hfirst)
  | _ => exact hfirst

end Progress
end CoreBridge.Host
