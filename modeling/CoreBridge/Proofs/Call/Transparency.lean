import CoreBridge.Demo.Operations
import CoreBridge.Proofs.Async.Record
import CoreBridge.Proofs.Call.Reporting
import Mathlib

/-!
# A call learns what the body came to

Between the body of an entry point and its caller lie the status that the core
writes and the classification of it by the host. The caller learns what the body
came to all the same. A call that fails returns the default of its type, which
owns nothing, and the payload of the status is given back.
-/
namespace CoreBridge

/-- The buffers that a trace gives back, in order. -/
def Trace.freed (trace : Trace) : List Buffer :=
  trace.filterMap fun
    | .free buffer => some buffer
    | _ => none

namespace Trace

variable {trace : Trace}

@[simp] theorem freed_nil : freed [] = [] := rfl

@[simp] theorem freed_append (first second : Trace) :
    freed (first ++ second) = freed first ++ freed second := List.filterMap_append

@[simp] theorem freed_free (buffer : Buffer) (trace : Trace) :
    freed (.free buffer :: trace) = buffer :: freed trace := rfl

@[simp] theorem freed_log (level : Level) (text : String) (trace : Trace) :
    freed (.log level text :: trace) = freed trace := rfl

theorem OnlyLogs.freed (h : trace.OnlyLogs) : trace.freed = [] := by
  apply List.filterMap_eq_nil_iff.2
  intro o ho
  obtain ⟨level, text, rfl⟩ := h o ho
  rfl

end Trace

namespace Core

/-- The body of an entry point: what it comes to, what happens meanwhile, and
what it makes of the core. -/
abbrev Body (α : Type) := State → Outcome α × Trace × State

theorem ReturnType.default_buffer (type : ReturnType) {buffer : Buffer}
    (h : type.default = .buffer buffer) : buffer = .null := by
  cases type <;> cases h
  rfl

/-- The entry point that runs a body. -/
def Body.entry {α : Type} (fallback : α) (body : Body α) (s : State) : Reply α × State :=
  let (outcome, shown, s) := body s
  let (reply, s) := s.onHeap (run true fallback outcome)
  ({ reply with trace := shown ++ reply.trace }, s)

namespace Body

variable {α : Type} (fallback : α) (body : Body α) (s : State)

theorem entry_value : (body.entry fallback s).1.value = (body s).1.valueOr fallback := by
  obtain ⟨logs, _, hrun⟩ := run_eq (body s).2.2.heap fallback (body s).1
  simp only [entry, State.onHeap, hrun]

theorem entry_status : (body.entry fallback s).1.status =
    ⟨(body s).1.report.1.raw, (payloadBuffer (body s).2.2.heap (body s).1.report.2).1⟩ := by
  obtain ⟨logs, _, hrun⟩ := run_eq (body s).2.2.heap fallback (body s).1
  simp only [entry, State.onHeap, hrun]

/-- The core gives nothing back on behalf of the host. -/
theorem entry_freed : (body.entry fallback s).1.trace.freed = (body s).2.1.freed := by
  obtain ⟨logs, hlogs, hrun⟩ := run_eq (body s).2.2.heap fallback (body s).1
  simp only [entry, State.onHeap, hrun, Trace.freed_append, hlogs.freed,
    List.append_nil]

/-- A payload that has an allocation has one of its own. -/
theorem entry_payload : (body.entry fallback s).1.status.payload = .null ∨
    ∃ bytes, (body.entry fallback s).1.status.payload =
      .allocated ⟨(body s).2.2.heap.issued, bytes, bytes.length⟩ := by
  rw [entry_status, payloadBuffer_eq]
  split_ifs
  · exact .inl rfl
  · exact .inr ⟨_, rfl⟩

/-- The body that stores the bytes it returns. -/
def storing (outcome : Outcome Bytes) : Body Buffer := fun s =>
  match outcome with
  | .returned bytes =>
    let (buffer, heap) := s.heap.store bytes
    (.returned buffer, [], { s with heap })
  | .failed error => (.failed error, [], s)
  | .panicked panic => (.panicked panic, [], s)

/-- The entry points of the small cores that return bytes run such bodies. -/
theorem entry_storing (outcome : Outcome Bytes) :
    (storing outcome).entry .null = Demo.runReturningBytes outcome := by
  funext s
  cases outcome <;> rfl

end Body
end Core

namespace Host

open CoreBridge.Core

/-! ## What is given back -/

/-- A call that ends in `s'` has given back its payload, and after it only the
payloads of the replies to giving back. -/
def Session.GivesBack {σ : Type} (s s' : Session σ) (shown : Trace) (payload : Buffer) : Prop :=
  ∃ nested, s'.trace.freed = s.trace.freed ++ shown.freed ++ payload.owned ++ nested ∧
    ∀ buffer ∈ nested, ∃ status ∈ s.freeReplies, status.payload = buffer

theorem WakeRegistry.freed_deliver (r : WakeRegistry) (id : Nat) (result : Int) :
    (r.deliver id result).2.freed = [] := by
  unfold WakeRegistry.deliver
  split
  · split <;> rfl
  · split <;> rfl

theorem releaseWith_freed (replies : List CallStatus) (buffer : Buffer) :
    ∃ nested, (releaseWith replies buffer).1.freed = buffer.owned ++ nested ∧
      ∀ other ∈ nested, ∃ status ∈ replies, status.payload = other := by
  induction replies generalizing buffer with
  | nil => cases buffer <;> exact ⟨[], rfl, nofun⟩
  | cons status replies ih =>
    cases buffer with
    | null => exact ⟨[], rfl, nofun⟩
    | allocated a =>
      obtain ⟨nested, hfreed, hnested⟩ := ih status.payload
      refine ⟨status.payload.owned ++ nested, ?_, ?_⟩
      · unfold releaseWith
        simp only [Trace.freed_free, Trace.freed_append, hfreed]
        cases classifyInfallible status <;> simp [Buffer.owned]
      · intro other hother
        obtain hmem | hmem := List.mem_append.1 hother
        · refine ⟨status, List.mem_cons_self, ?_⟩
          cases hpayload : status.payload with
          | null => simp [hpayload, Buffer.owned] at hmem
          | allocated b =>
            rw [hpayload] at hmem
            exact (List.mem_singleton.1 hmem).symm
        · obtain ⟨reply, hreply, heq⟩ := hnested other hmem
          exact ⟨reply, List.mem_cons_of_mem _ hreply, heq⟩

namespace HostM

variable {σ α ε : Type}

theorem absorb_freed (trace : Trace) (s : Session σ) :
    ((absorb trace).run s).2.trace.freed = s.trace.freed ++ trace.freed ∧
      ((absorb trace).run s).2.freeReplies = s.freeReplies := by
  induction trace generalizing s with
  | nil => exact ⟨(List.append_nil _).symm, rfl⟩
  | cons o trace ih =>
    cases o with
    | fired id result =>
      let delivered := s.wakes.deliver id result
      obtain ⟨hfreed, hreplies⟩ := ih { s with
        wakes := delivered.1
        trace := s.trace ++ [.fired id result] ++ delivered.2 }
      refine ⟨hfreed.trans ?_, hreplies⟩
      have hdelivered : delivered.2.freed = [] := WakeRegistry.freed_deliver _ _ _
      simp only [Trace.freed_append, hdelivered, List.append_nil, List.append_assoc]
      exact congrArg (s.trace.freed ++ ·) (Trace.freed_append [_] trace).symm
    | _ =>
      obtain ⟨hfreed, hreplies⟩ := ih { s with trace := s.trace ++ [_] }
      refine ⟨hfreed.trans ?_, hreplies⟩
      simp only [Trace.freed_append, List.append_assoc]
      exact congrArg (s.trace.freed ++ ·) (Trace.freed_append [_] trace).symm

/-- Releasing a payload right after a trace was absorbed. -/
theorem absorb_release_givesBack (trace : Trace) (payload : Buffer) (s : Session σ) :
    s.GivesBack ((release payload).run ((absorb trace).run s).2).2 trace payload := by
  obtain ⟨hfreed, hreplies⟩ := absorb_freed trace s
  obtain ⟨nested, hreleased, hnested⟩ :=
    releaseWith_freed ((absorb trace).run s).2.freeReplies payload
  rw [hreplies] at hnested
  refine ⟨nested, ?_, hnested⟩
  have hrun : ((release payload).run ((absorb trace).run s).2).2.trace.freed =
      (((absorb trace).run s).2.trace ++
        (releaseWith ((absorb trace).run s).2.freeReplies payload).1).freed := rfl
  rw [hrun, Trace.freed_append, hfreed, hreleased, List.append_assoc _ payload.owned]

theorem call_givesBack (transition : σ → Reply α × σ) (s : Session σ) :
    s.GivesBack ((call transition).run s).2 (transition s.core).1.trace
      (transition s.core).1.status.payload := by
  have hobserve : (observe [] : HostM σ Unit) = pure () := by
    funext s
    exact congrArg (fun trace => ((), { s with trace })) (List.append_nil s.trace)
  unfold call
  simp only [hobserve, pure_bind]
  exact absorb_release_givesBack (transition s.core).1.trace
    (transition s.core).1.status.payload { s with core := (transition s.core).2 }

theorem callFallible_givesBack (decode : Bytes → Except Wire.DecodeError ε)
    (transition : σ → Reply α × σ) (s : Session σ) :
    s.GivesBack ((callFallible decode transition).run s).2 (transition s.core).1.trace
      (transition s.core).1.status.payload :=
  absorb_release_givesBack (transition s.core).1.trace
    (transition s.core).1.status.payload { s with core := (transition s.core).2 }

end HostM

/-! ## What is learnt -/

/-- What a caller is to learn of an outcome: the value, what it takes the error
for, or the fault that there is no value and no error to be had. -/
def answer {α δ : Type} (domain : Wire.Value → δ) (fault : Fault → δ) :
    Outcome α → Except δ α
  | .returned value => .ok value
  | .failed error =>
    match Wire.encode error with
    | .ok _ => .error (domain error)
    | .error reason =>
      .error (fault (.nativePanic s!"failed to encode error: {reason.message}"))
  | .panicked (.text message) =>
    .error (fault (if message = "" then .doubleFault else .nativePanic message))
  | .panicked .other => .error (fault (.nativePanic "unknown panic"))

section Answers

variable {α δ : Type} (heap : Heap) (fallback : α) (outcome : Outcome α)

/-- A report reads as the outcome that it is of, whoever reads success as such,
the wire form of the error as the error, and a text as a panic. -/
theorem read_report (read : CallStatus → Except δ Unit) (domain : Wire.Value → δ)
    (fault : Fault → δ) (hsuccess : read ⟨ResultCode.success.raw, .null⟩ = .ok ())
    (herror : ∀ error buffer, outcome = .failed error → Wire.encode error = .ok buffer.bytes →
      read ⟨ResultCode.error.raw, buffer⟩ = .error (domain error))
    (hpanic : ∀ buffer, read ⟨ResultCode.unexpected.raw, buffer⟩ =
      .error (fault (panicFault buffer.bytes))) :
    ((read ⟨outcome.report.1.raw, (payloadBuffer heap outcome.report.2).1⟩).map fun () =>
      outcome.valueOr fallback) = answer domain fault outcome := by
  cases outcome with
  | returned value =>
    have hread : read ⟨ResultCode.success.raw, (payloadBuffer heap []).1⟩ = .ok () := hsuccess
    simp only [Outcome.report, hread]
    rfl
  | panicked panic =>
    simp only [Outcome.report, hpanic, payloadBuffer_bytes, panicFault_ofText]
    cases panic <;> rfl
  | failed error =>
    cases hencode : Wire.encode error with
    | ok bytes =>
      have hread := herror error (payloadBuffer heap bytes).1 rfl (by simpa using hencode)
      simp only [Outcome.report, answer, hencode, hread]
      rfl
    | error reason =>
      simp only [Outcome.report, answer, hencode, hpanic, payloadBuffer_bytes, panicFault_ofText]
      rw [textFault_append (by decide)]
      rfl

theorem classifyInfallible_report :
    ((classifyInfallible
      ⟨outcome.report.1.raw, (payloadBuffer heap outcome.report.2).1⟩).map fun () =>
        outcome.valueOr fallback) = answer (fun _ => .unexpectedDomainError) id outcome := by
  apply read_report
  · rfl
  · intro error buffer _ _
    rfl
  · intro buffer
    rfl

variable {schema : Wire.Schema} {t : Wire.Ty}

/-- An error of the type that is expected is read back from its wire form. -/
theorem classify_report (hschema : schema.IsDistinct)
    (herror : ∀ error, outcome = .failed error →
      error.HasType schema schema t ∧ error.IsWellFormed) :
    ((classify (schema.decode t)
      ⟨outcome.report.1.raw, (payloadBuffer heap outcome.report.2).1⟩).map fun () =>
        outcome.valueOr fallback) = answer .domain .fault outcome := by
  apply read_report
  · rfl
  · intro error buffer houtcome hencode
    obtain ⟨ht, hv⟩ := herror error houtcome
    exact classify_error _ _ (Wire.Schema.decode_of_encode hschema ht hv hencode)
  · exact classify_unexpected _

end Answers

/-- Calls are transparent. Whatever the body of an entry point does to the core, a
caller that may be told of errors learns what it came to: the value, the error,
or why there is neither. One that may not learns the same, but no error. If the
body does not return, the entry point returns the default of its type, which
owns no buffer. Apart from what the body shows, a call gives back the payload of
its status, an allocation of its own if it has one, and nothing else, but for
payloads that come of giving back. -/
theorem call_transparent {schema : Wire.Schema} {t : Wire.Ty} (hschema : schema.IsDistinct)
    (type : ReturnType) (body : Body Returned) (s : Session State)
    (herror : ∀ error, (body s.core).1 = .failed error →
      error.HasType schema schema t ∧ error.IsWellFormed) :
    let outcome := (body s.core).1
    let shown := (body s.core).2.1
    let reply := (body.entry type.default s.core).1
    let fallible := (HostM.callFallible (schema.decode t) (body.entry type.default)).run s
    let infallible := (HostM.call (body.entry type.default)).run s
    fallible.1 = answer .domain .fault outcome ∧
    infallible.1 = answer (fun _ => .unexpectedDomainError) id outcome ∧
    ((∀ value, outcome ≠ .returned value) →
      reply.value = type.default ∧ ∀ buffer, type.default = .buffer buffer → buffer = .null) ∧
    (reply.status.payload = .null ∨ ∃ bytes, reply.status.payload =
      .allocated ⟨(body s.core).2.2.heap.issued, bytes, bytes.length⟩) ∧
    s.GivesBack fallible.2 shown reply.status.payload ∧
    s.GivesBack infallible.2 shown reply.status.payload := by
  intro outcome shown reply fallible infallible
  have hvalue : reply.value = outcome.valueOr type.default := body.entry_value _ _
  have hstatus : reply.status =
      ⟨outcome.report.1.raw, (payloadBuffer (body s.core).2.2.heap outcome.report.2).1⟩ :=
    body.entry_status _ _
  have hfreed : reply.trace.freed = shown.freed := body.entry_freed _ _
  refine ⟨?_, ?_, ?_, body.entry_payload _ _, ?_, ?_⟩
  · obtain ⟨s', hrun, _⟩ :=
      HostM.callFallible_run (schema.decode t) (body.entry type.default) s
    have hanswer : fallible.1 =
        (classify (schema.decode t) reply.status).map fun () => reply.value :=
      congrArg Prod.fst hrun
    rw [hanswer, hstatus, hvalue]
    exact classify_report _ _ _ hschema herror
  · obtain ⟨s', hrun, _⟩ := HostM.call_run (body.entry type.default) (fun _ => []) s
    have hanswer : infallible.1 = (classifyInfallible reply.status).map fun () => reply.value :=
      congrArg Prod.fst hrun
    rw [hanswer, hstatus, hvalue]
    exact classifyInfallible_report _ _ _
  · intro hfails
    refine ⟨?_, fun _ => type.default_buffer⟩
    rw [hvalue]
    cases houtcome : outcome with
    | returned value => exact absurd houtcome (hfails value)
    | failed error => rfl
    | panicked panic => rfl
  · have h := HostM.callFallible_givesBack (schema.decode t) (body.entry type.default) s
    simpa only [Session.GivesBack, ← hfreed] using h
  · have h := HostM.call_givesBack (body.entry type.default) s
    simpa only [Session.GivesBack, ← hfreed] using h

/-- Allocates a buffer and then fails with an error that has no bytes. -/
def wastefulBody : Body Returned := fun s =>
  (.failed (.record []), [], { s with heap := (s.heap.store [1, 2, 3]).2 })

/-- The error arrives although its wire form is the null buffer, and nothing is given back. -/
theorem call_transparent_wasteful :
    let schema : Wire.Schema := [("Refusal", .record [])]
    let entry := wastefulBody.entry ReturnType.buffer.default
    schema.IsDistinct ∧
      (Wire.Value.record []).HasType schema schema (.named "Refusal") ∧
      ((HostM.callFallible (schema.decode (.named "Refusal")) entry).run { core := {} }).1 =
        .error (.domain (.record [])) ∧
      ((HostM.call entry).run { core := {} }).1 = .error .unexpectedDomainError ∧
      (entry {}).1.value = .buffer .null ∧
      ((HostM.call entry).run { core := {} }).2.trace.freed = [] := by
  intro schema entry
  have hschema : schema.IsDistinct := by decide
  have htype : (Wire.Value.record []).HasType schema schema (.named "Refusal") :=
    ⟨"Refusal", [], [], rfl, rfl, trivial⟩
  obtain ⟨hfallible, hinfallible, hdefault, _, _, nested, hfreed, hnested⟩ :=
    call_transparent hschema .buffer wastefulBody { core := {} } (t := .named "Refusal") (by
      intro error herror
      obtain rfl : Wire.Value.record [] = error := Outcome.failed.inj herror
      exact ⟨htype, trivial⟩)
  have hnone : nested = [] := by
    apply List.eq_nil_iff_forall_not_mem.2
    intro buffer hmem
    obtain ⟨status, hstatus, _⟩ := hnested buffer hmem
    exact absurd hstatus List.not_mem_nil
  refine ⟨hschema, htype, hfallible, hinfallible, (hdefault nofun).1, ?_⟩
  rw [hfreed, hnone]
  rfl

end Host
end CoreBridge
