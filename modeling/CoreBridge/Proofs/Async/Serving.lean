import CoreBridge.Proofs.Async.Driving
import CoreBridge.Proofs.Task.Others

/-!
# A call among others

A call drives its task in steps: it polls, takes what a continuation brought,
collects the outcome and frees the task. Between any two of them others may work
on the task store, waking wakers, cancelling the task, driving tasks of their
own, and the host may see to other calls. `Serving` is a call with what has
become of its task through others, and `Reaches` says what may come of it.
A poll of the whole call takes such steps and no other (`callPoll_steps`).
-/
namespace CoreBridge

namespace Task

/-- Whether the operation cancels the task. -/
def Operation.cancels (handle : Nat) : Operation → Bool
  | .cancel h => h = handle
  | _ => false

theorem Operation.cancels_iff {handle : Nat} {op : Operation} :
    op.cancels handle = true ↔ op = .cancel handle := by
  cases op <;> simp [cancels]

/-- Whether the operation wakes the waker of the last poll of the task, if that
answered pending. -/
def Store.wakesPending (s : Store) (handle : Nat) (op : Operation) : Bool :=
  match s.pending? handle with
  | some waker => waker ∈ s.wakesOf op
  | none => false

end Task

namespace Host

open CoreBridge.Core CoreBridge.Task

/-- What a call ends with, before its value is read. -/
abbrev Answer := Except (CallError Wire.Value) Collection

/-- How far a call has got. -/
inductive Stage where
  | driving (drive : Drive)
  /-- The outcome is collected and the task still to be freed. -/
  | collected (answer : Answer)
  | ended (answer : Answer)

namespace Stage

/-- Whether the outcome is still to be collected. -/
def isDriving : Stage → Bool
  | driving _ => true
  | _ => false

/-- Whether the call is to poll the task next. -/
def polls : Stage → Bool
  | driving (.polling _) => true
  | _ => false

/-- Whether the call waits for a continuation. -/
def waits : Stage → Bool
  | driving (.waiting ..) => true
  | _ => false

/-- The call at this stage. -/
def call (task : Nat) : Stage → Call Wire.Value
  | driving drive => .driving task drive
  | collected answer | ended answer => .ended answer

variable (decode : Bytes → Except Wire.DecodeError Wire.Value) (number task : Nat)

/-- The next step of the host future `number`, which calls. -/
def step : Stage → HostM State Stage
  | driving (.polling report) => do return driving (← Drive.poll machine number task report)
  | driving (.waiting id report) => do return driving (← Drive.receive id report)
  | driving (.finished _) => do return collected (← collect machine decode .buffer task)
  | driving (.failed fault) => do
    Call.giveUp machine task true
    return ended (.error (.fault fault))
  | collected answer => do
    Call.giveUp machine task false
    return ended answer
  | ended answer => return ended answer

end Stage

/-- The operation that starts a future whose value and error are written to the wire. -/
def lowering (decode : Bytes → Except Wire.DecodeError Wire.Value)
    (future : Future (Except Wire.Value Wire.Value)) : Operation State Wire.Value where
  start s := s.onTasks (·.spawnLowered future)
  flavour := .buffer
  decode

/-- A call in its host, with what has become of its task. -/
structure Serving where
  stage : Stage
  session : Session State
  /-- Whether the task was cancelled before its outcome was collected. -/
  cancelled : Bool := false
  /-- Whether, since it last began a poll, the waker of that poll was woken or the
  task cancelled. -/
  due : Bool := false
  /-- The steps that the call took, but for those in which it waited in vain. -/
  steps : Nat := 0

namespace Serving

variable (decode : Bytes → Except Wire.DecodeError Wire.Value) (number task : Nat) (r : Serving)

/-- The call takes its next step. -/
def advance : Serving :=
  let next := (r.stage.step decode number task).run r.session
  let tasks := r.session.core.tasks
  { r with
    stage := next.1
    session := next.2
    due := if r.stage.polls then
      tasks.wakers.size ∈ tasks.wakesOf (.poll task r.session.wakes.nextId) else r.due
    steps := if r.stage.waits && !r.due then r.steps else r.steps + 1 }

/-- Others perform an operation on the task store. -/
def perform (op : Task.Operation) : Serving :=
  { r with
    session := ((HostM.enter fun s => s.onTasks (·.perform op)).run r.session).2
    cancelled := r.cancelled || r.stage.isDriving && op.cancels task
    due := r.due || op.cancels task || r.session.core.tasks.wakesPending task op }

/-- What others may perform: until the call has ended they do nothing with its task
but cancel it, and they poll with ids that were issued to them. -/
structure Admits (op : Task.Operation) : Prop where
  target : op.target? = some task → op.cancels task = true ∨ ∃ answer, r.stage = .ended answer
  issued : ∀ handle id, op = .poll handle id → id < r.session.wakes.nextId
  other : ∀ handle id report, op = .poll handle id → r.stage ≠ .driving (.waiting id report)

/-- What else may happen: anything that leaves the tasks and the channel of the call alone. -/
structure Keeps (s : Session State) : Prop where
  tasks : s.core.tasks = r.session.core.tasks
  ids : r.session.wakes.nextId ≤ s.wakes.nextId
  channel : ∀ id report, r.stage = .driving (.waiting id report) →
    s.wakes.channels.get? id = r.session.wakes.channels.get? id

/-- A call that has started its task. -/
def begun (decode : Bytes → Except Wire.DecodeError Wire.Value)
    (future : Future (Except Wire.Value Wire.Value)) (start : Session State) : Serving where
  stage := .driving (.polling {})
  session := ((HostM.callFallible decode (lowering decode future).start).run start).2

/-- What may happen next: the call takes a step, or something else happens. -/
inductive Next : Serving → Serving → Prop
  | advance (r : Serving) : Next r (r.advance decode number task)
  | perform {r : Serving} {op : Task.Operation} (h : r.Admits task op) : Next r (r.perform task op)
  | elsewhere {r : Serving} {s : Session State} (h : r.Keeps s) : Next r { r with session := s }

/-- What may come of a call. -/
abbrev Reaches : Serving → Serving → Prop := Relation.ReflTransGen (Next decode number task)

/-- What comes of a call by its own steps. -/
abbrev Leads : Serving → Serving → Prop :=
  Relation.ReflTransGen fun r v => r.advance decode number task = v

theorem cancelled_advance : (r.advance decode number task).cancelled = r.cancelled := rfl

theorem due_advance : (r.advance decode number task).due =
    if r.stage.polls then decide (r.session.core.tasks.wakers.size ∈
      r.session.core.tasks.wakesOf (.poll task r.session.wakes.nextId)) else r.due := rfl

theorem steps_advance : (r.advance decode number task).steps =
    if r.stage.waits && !r.due then r.steps else r.steps + 1 := rfl

variable {decode number task r}

theorem Leads.reaches {v : Serving} (h : Leads decode number task r v) :
    Reaches decode number task r v :=
  Relation.ReflTransGen.mono (fun r _ heq => heq ▸ .advance r) _ _ h

theorem Leads.cancelled {v : Serving} (h : Leads decode number task r v) :
    v.cancelled = r.cancelled := by
  induction h with
  | refl => rfl
  | tail _ hstep ih => exact hstep ▸ ih

/-! ## A poll of the whole call -/

theorem advance_eq {stage : Stage} {s : Session State}
    (h : (r.stage.step decode number task).run r.session = (stage, s)) :
    (r.advance decode number task).stage = stage ∧
      (r.advance decode number task).session = s := by
  simp only [advance, h, and_self]

/-- A poll never leaves a task to be polled at once. -/
theorem poll_ne_polling {report report' : PollReport} {s s' : Session State} :
    (Drive.poll machine number task report).run s ≠ (.polling report', s') := by
  rw [Drive.poll_eq machine number task report rfl rfl]
  unfold Drive.answered
  split
  · exact nofun
  · split
    · exact nofun
    · exact nofun

/-- Driving a task takes steps of the call. -/
theorem leads_run (fuel : Nat) (d : Drive) (hstage : r.stage = .driving d) :
    ∃ d' v, Leads decode number task r v ∧ v.stage = .driving d' ∧
      (Drive.run machine number task fuel d).run r.session = (d', v.session) := by
  induction fuel generalizing r d with
  | zero => exact ⟨d, r, .refl, hstage, rfl⟩
  | succ fuel ih =>
    have hwaiting (id : Nat) (report : PollReport) (r : Serving)
        (hstage : r.stage = .driving (.waiting id report)) :
        ∃ d' v, Leads decode number task r v ∧ v.stage = .driving d' ∧
          (Drive.run machine number task (fuel + 1) (.waiting id report)).run r.session =
            (d', v.session) := by
      rcases hreceive : (Drive.receive id report).run r.session with ⟨d, s⟩
      have hstep : (r.stage.step decode number task).run r.session = (.driving d, s) := by
        rw [hstage]
        exact congrArg (fun answer => (Stage.driving answer.1, answer.2)) hreceive
      obtain ⟨hnext, rfl⟩ := advance_eq hstep
      rw [Drive.run_waiting hreceive]
      cases d with
      | polling report' =>
        obtain ⟨d', v, hleads, hv, hrun⟩ := ih _ hnext
        exact ⟨d', v, .head rfl hleads, hv, hrun⟩
      | _ => exact ⟨_, _, .single rfl, hnext, rfl⟩
    cases d with
    | polling report =>
      rcases hpoll : (Drive.poll machine number task report).run r.session with ⟨d, s⟩
      have hne : ∀ report', d ≠ .polling report' := by
        rintro report' rfl
        exact poll_ne_polling hpoll
      have hstep : (r.stage.step decode number task).run r.session = (.driving d, s) := by
        rw [hstage]
        exact congrArg (fun answer => (Stage.driving answer.1, answer.2)) hpoll
      obtain ⟨hnext, rfl⟩ := advance_eq hstep
      rw [Drive.run_polling hpoll hne]
      cases d with
      | polling report' => exact absurd rfl (hne report')
      | waiting id report' =>
        obtain ⟨d', v, hleads, hv, hrun⟩ := hwaiting id report' _ hnext
        exact ⟨d', v, .head rfl hleads, hv, hrun⟩
      | _ => exact ⟨_, _, .single rfl, hnext, rfl⟩
    | waiting id report => exact hwaiting id report r hstage
    | _ => exact ⟨_, r, .refl, hstage, rfl⟩

/-- A poll of the whole call takes steps of the call. -/
theorem callPoll_steps (future : Future (Except Wire.Value Wire.Value)) (fuel : Nat) (d : Drive)
    (hstage : r.stage = .driving d) :
    ∃ v, Leads decode number task r v ∧
      (Call.poll machine (lowering decode future) number fuel (.driving task d)).run r.session =
        (v.stage.call task, v.session) ∧ ∀ answer, v.stage ≠ .collected answer := by
  obtain ⟨d', v, hleads, hv, hrun⟩ :
      ∃ d' v, Leads decode number task r v ∧ v.stage = .driving d' ∧
        (Drive.run machine number task fuel d).run r.session = (d', v.session) :=
    leads_run fuel d hstage
  have hpoll : (Call.poll machine (lowering decode future) number fuel (.driving task d)).run
      r.session = (Call.settle machine (lowering decode future) task d').run v.session := by
    simp only [Call.poll, StateT.run_bind, hrun]
    rfl
  rw [hpoll]
  cases d' with
  | polling report => exact ⟨v, hleads, by rw [hv]; rfl, by rw [hv]; exact nofun⟩
  | waiting id report => exact ⟨v, hleads, by rw [hv]; rfl, by rw [hv]; exact nofun⟩
  | failed fault =>
    rcases hgive : (Call.giveUp machine task true).run v.session with ⟨_, s⟩
    have hstep : (v.stage.step decode number task).run v.session =
        (.ended (.error (.fault fault)), s) := by
      rw [hv]
      simp only [Stage.step, StateT.run_bind, hgive]
      rfl
    obtain ⟨hnext, hsession⟩ := advance_eq hstep
    refine ⟨_, hleads.trans (.single rfl), ?_, by rw [hnext]; exact nofun⟩
    rw [hnext, hsession]
    simp only [Call.settle, StateT.run_bind, hgive]
    rfl
  | finished report =>
    rcases hcollect : (collect machine decode .buffer task).run v.session with ⟨answer, s⟩
    have hstep : (v.stage.step decode number task).run v.session = (.collected answer, s) := by
      rw [hv]
      simp only [Stage.step, StateT.run_bind, hcollect]
      rfl
    obtain ⟨hnext, rfl⟩ := advance_eq hstep
    rcases hgive : (Call.giveUp machine task false).run (v.advance decode number task).session
      with ⟨_, s⟩
    have hstep' : ((v.advance decode number task).stage.step decode number task).run
        (v.advance decode number task).session = (.ended answer, s) := by
      rw [hnext]
      simp only [Stage.step, StateT.run_bind, hgive]
      rfl
    obtain ⟨hlast, hsession⟩ := advance_eq hstep'
    refine ⟨_, hleads.trans (.head rfl (.single rfl)), ?_, by rw [hlast]; exact nofun⟩
    rw [hlast, hsession]
    simp only [Call.settle, lowering, StateT.run_bind, hcollect]
    dsimp only [Bind.bind]
    rw [hgive]
    rfl

/-- The first poll of a call starts its task and goes on from there. -/
theorem callPoll_unstarted (decode : Bytes → Except Wire.DecodeError Wire.Value) (number : Nat)
    (future : Future (Except Wire.Value Wire.Value)) (start : Session State) (fuel : Nat) :
    (Call.poll machine (lowering decode future) number fuel .unstarted).run start =
      (Call.poll machine (lowering decode future) number fuel
        (.driving start.core.tasks.nextHandle (.polling {}))).run
          (begun decode future start).session := rfl

end Serving
end Host
end CoreBridge
