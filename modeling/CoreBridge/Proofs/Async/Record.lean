import CoreBridge.Host.Executor
import Mathlib.Tactic

/-!
# Recording the calls into a core

`spy` turns any core into one that does the same and records every entry point
as it is invoked, with what it answered, and every invocation of the
continuation. What a host does with a core is then what it adds to the record.

Of a session only the core and the wake registry matter here, so each step of a
host is described by what it answers and does to these two.
-/
namespace CoreBridge.Host

/-- Whether a status reports success. -/
abbrev Succeeded (status : CallStatus) : Prop := status.code = ResultCode.success.raw

theorem ofRaw?_eq_success {code : Int} :
    ResultCode.ofRaw? code = some .success ↔ code = ResultCode.success.raw := by
  constructor
  · intro h
    unfold ResultCode.ofRaw? at h
    split at h <;> first | rfl | exact nomatch h
  · rintro rfl
    rfl

theorem classifyInfallible_cases (status : CallStatus) :
    (Succeeded status ∧ classifyInfallible status = .ok ()) ∨
      (¬ Succeeded status ∧ ∃ fault, classifyInfallible status = .error fault) := by
  rw [Succeeded, ← ofRaw?_eq_success]
  unfold classifyInfallible
  cases ResultCode.ofRaw? status.code with
  | none => exact .inr ⟨nofun, _, rfl⟩
  | some code =>
    cases code with
    | success => exact .inl ⟨rfl, rfl⟩
    | error | unexpected | cancelled => exact .inr ⟨nofun, _, rfl⟩

theorem classify_cases {ε : Type} (decode : Bytes → Except Wire.DecodeError ε)
    (status : CallStatus) :
    (Succeeded status ∧ classify decode status = .ok ()) ∨
      (¬ Succeeded status ∧ ∃ error, classify decode status = .error error) := by
  rw [Succeeded, ← ofRaw?_eq_success]
  unfold classify
  cases ResultCode.ofRaw? status.code with
  | none => exact .inr ⟨nofun, _, rfl⟩
  | some code =>
    cases code with
    | success => exact .inl ⟨rfl, rfl⟩
    | error =>
      cases decode status.payload.bytes with
      | ok error => exact .inr ⟨nofun, _, rfl⟩
      | error reason => exact .inr ⟨nofun, _, rfl⟩
    | unexpected | cancelled => exact .inr ⟨nofun, _, rfl⟩

/-! ## The record -/

/-- An entry point as it was invoked, with what it answered. -/
inductive Entry where
  | start (status : CallStatus) (task : Nat)
  | poll (task id : Nat) (status : CallStatus) (answer : Int)
  | cancel (task : Nat)
  | complete (flavour : Flavour) (task : Nat)
  | freeTask (task : Nat)
  /-- One that concerns no task. -/
  | other
deriving DecidableEq, Repr

/-- What is recorded. -/
inductive Event where
  | entered (entry : Entry)
  /-- The continuation is invoked. -/
  | fired (id : Nat) (result : Int)
deriving DecidableEq, Repr

namespace Event

/-- The entry points among the events, in order. -/
def entries (events : List Event) : List Entry :=
  events.filterMap fun
    | .entered entry => some entry
    | .fired .. => none

/-- The result of the first invocation of the continuation for this id, if there is one. -/
def delivered? (id : Nat) (events : List Event) : Option Int :=
  events.findSome? fun
    | .fired i result => if i = id then some result else none
    | .entered _ => none

/-- The invocations of the continuation that a trace shows. -/
def ofTrace (trace : Trace) : List Event :=
  trace.filterMap fun
    | .fired id result => some (.fired id result)
    | _ => none

variable (first second : List Event) (id : Nat)

@[simp] theorem entries_nil : entries [] = [] := rfl

@[simp] theorem entries_append : entries (first ++ second) = entries first ++ entries second :=
  List.filterMap_append

@[simp] theorem entries_entered (entry : Entry) (events : List Event) :
    entries (.entered entry :: events) = entry :: entries events := rfl

@[simp] theorem entries_fired (result : Int) (events : List Event) :
    entries (.fired id result :: events) = entries events := rfl

@[simp] theorem entries_ofTrace (trace : Trace) : entries (ofTrace trace) = [] := by
  induction trace with
  | nil => rfl
  | cons o trace ih => cases o <;> simp_all [ofTrace]

@[simp] theorem delivered?_nil : delivered? id [] = none := rfl

theorem delivered?_fired (i : Nat) (result : Int) (events : List Event) :
    delivered? id (.fired i result :: events) =
      (if i = id then some result else none).or (delivered? id events) := by
  by_cases hi : i = id <;> simp [delivered?, hi]

theorem delivered?_append : delivered? id (first ++ second) =
    (delivered? id first).or (delivered? id second) := List.findSome?_append

end Event

/-- A core with a record. -/
structure Spied (σ : Type) where
  core : σ
  record : List Event := []

/-- The transition that also records what it answered. -/
def Spied.note {σ α : Type} (entry : Reply α → Entry) (transition : σ → Reply α × σ)
    (s : Spied σ) : Reply α × Spied σ :=
  let (reply, core) := transition s.core
  (reply, { core, record := s.record ++ .entered (entry reply) :: Event.ofTrace reply.trace })

/-- The core that does what `core` does and records it. -/
def spy {σ : Type} (core : Core.EntryPoints σ) : Core.EntryPoints (Spied σ) where
  alloc size := Spied.note (fun _ => .other) (core.alloc size)
  fromBytes lent := Spied.note (fun _ => .other) (core.fromBytes lent)
  reserve buffer additional := Spied.note (fun _ => .other) (core.reserve buffer additional)
  contractVersion := Spied.note (fun _ => .other) core.contractVersion
  setContinuation callback := Spied.note (fun _ => .other) (core.setContinuation callback)
  poll task id :=
    Spied.note (fun reply => .poll task id reply.status reply.value) (core.poll task id)
  cancel task := Spied.note (fun _ => .cancel task) (core.cancel task)
  complete flavour task := Spied.note (fun _ => .complete flavour task) (core.complete flavour task)
  freeTask task := Spied.note (fun _ => .freeTask task) (core.freeTask task)

/-- The operation that also records how it started. -/
def Operation.spied {σ ε : Type} (op : Operation σ ε) : Operation (Spied σ) ε :=
  { op with start := Spied.note (fun reply => .start reply.status reply.value) op.start }

/-! ## The channel of a poll -/

namespace WakeRegistry

/-- The channel of a poll holds what was delivered to it. -/
def Holds (r : WakeRegistry) (id : Nat) : Option Int → Prop
  | none => ∃ call suspended, r.channels.get? id = some (.awaiting call suspended)
  | some result => r.channels.get? id = some (.delivered result)

/-- The registry after the continuations that a trace shows. -/
def deliverAll (r : WakeRegistry) : Trace → WakeRegistry
  | [] => r
  | .fired id result :: trace => (r.deliver id result).1.deliverAll trace
  | _ :: trace => r.deliverAll trace

variable {r : WakeRegistry} {id : Nat} {d : Option Int}

theorem Holds.received? (h : r.Holds id d) : r.received? id = d := by
  unfold WakeRegistry.received?
  cases d with
  | none =>
    obtain ⟨call, suspended, hget⟩ := h
    rw [hget]
  | some result =>
    have hget : r.channels.get? id = some (.delivered result) := h
    rw [hget]

theorem holds_register (r : WakeRegistry) (call : Nat) :
    (r.register call).2.Holds (r.register call).1 none :=
  ⟨call, false, by simp [register]⟩

theorem Holds.congr {r' : WakeRegistry} (h : r.Holds id d)
    (hget : r'.channels.get? id = r.channels.get? id) : r'.Holds id d := by
  cases d <;> simpa only [Holds, hget] using h

theorem Holds.suspend (h : r.Holds id d) : (r.suspend id).Holds id d := by
  unfold WakeRegistry.suspend
  cases d with
  | none =>
    obtain ⟨call, suspended, hget⟩ := h
    simp only [hget]
    exact ⟨call, true, by simp⟩
  | some result =>
    have hget : r.channels.get? id = some (.delivered result) := h
    simp only [hget]
    exact h

/-- The first continuation for a poll is the one that is delivered. -/
theorem Holds.deliver (h : r.Holds id d) (i : Nat) (result : Int) :
    (r.deliver i result).1.Holds id (d.or (if i = id then some result else none)) := by
  by_cases hi : i = id
  · subst hi
    unfold WakeRegistry.deliver
    cases d with
    | none =>
      obtain ⟨call, suspended, hget⟩ := h
      simp only [hget]
      simp [Holds]
    | some first =>
      have hget : r.channels.get? i = some (.delivered first) := h
      simp only [hget]
      split <;> exact h
  · rw [if_neg hi, Option.or_none]
    refine h.congr ?_
    unfold WakeRegistry.deliver
    split
    · simp [hi]
    · split <;> rfl

theorem Holds.deliverAll (h : r.Holds id d) (trace : Trace) :
    (r.deliverAll trace).Holds id (d.or (Event.delivered? id (Event.ofTrace trace))) := by
  induction trace generalizing r d with
  | nil => simpa [Event.ofTrace, WakeRegistry.deliverAll] using h
  | cons o trace ih =>
    cases o with
    | fired i result =>
      have hnext := ih (h.deliver i result)
      rw [Option.or_assoc, ← Event.delivered?_fired] at hnext
      exact hnext
    | _ => exact ih h

end WakeRegistry

/-! ## Steps of a host -/

namespace HostM

variable {σ α ε : Type}

theorem onWakes_run (f : WakeRegistry → α × WakeRegistry) (s : Session σ) :
    (onWakes f).run s = ((f s.wakes).1, { s with wakes := (f s.wakes).2 }) := rfl

theorem absorb_run (trace : Trace) (s : Session σ) :
    ((absorb trace).run s).2.core = s.core ∧
      ((absorb trace).run s).2.wakes = s.wakes.deliverAll trace := by
  induction trace generalizing s with
  | nil => exact ⟨rfl, rfl⟩
  | cons o trace ih =>
    cases o <;> exact ih _

theorem enter_run (transition : σ → Reply α × σ) (s : Session σ) :
    ∃ s', (enter transition).run s =
        (((transition s.core).1.value, (transition s.core).1.status), s') ∧
      s'.core = (transition s.core).2 ∧
      s'.wakes = s.wakes.deliverAll (transition s.core).1.trace := by
  refine ⟨_, rfl, ?_⟩
  exact absorb_run (transition s.core).1.trace { s with core := (transition s.core).2 }

theorem call_run (transition : σ → Reply α × σ) (shown : α → Trace) (s : Session σ) :
    ∃ s', (call transition shown).run s =
        ((classifyInfallible (transition s.core).1.status).map fun () =>
          (transition s.core).1.value, s') ∧
      s'.core = (transition s.core).2 ∧
      s'.wakes = s.wakes.deliverAll (transition s.core).1.trace := by
  obtain ⟨s₁, hrun, hcore, hwakes⟩ := enter_run transition s
  unfold call
  simp only [StateT.run_bind, hrun]
  exact ⟨_, rfl, hcore, hwakes⟩

theorem callFallible_run (decode : Bytes → Except Wire.DecodeError ε)
    (transition : σ → Reply α × σ) (s : Session σ) :
    ∃ s', (callFallible decode transition).run s =
        ((classify decode (transition s.core).1.status).map fun () =>
          (transition s.core).1.value, s') ∧
      s'.core = (transition s.core).2 ∧
      s'.wakes = s.wakes.deliverAll (transition s.core).1.trace := by
  obtain ⟨s₁, hrun, hcore, hwakes⟩ := enter_run transition s
  unfold callFallible
  simp only [StateT.run_bind, hrun]
  exact ⟨_, rfl, hcore, hwakes⟩

end HostM
end CoreBridge.Host
