import CoreBridge.Proofs.Call.Transparency
import Mathlib

/-!
# What a status says, and what becomes of its payload

A status is told apart by its code, and two of the codes by their payload too. Every answer
of the two classifications is here said to be given for exactly which statuses, so nothing is
left open by the order in which they look at the code. The payload goes back to the core on
every one of these ways. If giving back succeeds, this is all that is given back.
-/
namespace CoreBridge

theorem ResultCode.eq_or_outside (n : Int) :
    n = success.raw ∨ n = error.raw ∨ n = unexpected.raw ∨ n = cancelled.raw ∨ n < 0 ∨ 3 < n := by
  simp only [raw]
  omega

theorem ResultCode.ofRaw?_outside {n : Int} (h : n < 0 ∨ 3 < n) : ofRaw? n = none := by
  unfold ofRaw?
  split <;> first | rfl | omega

/-! ## Reading a buffer as a whole -/

namespace Wire.Reader

variable {ε : Type} (read : Reader ε)

/-- What a buffer says that holds one value and nothing else. -/
def whole (bytes : Bytes) : Except DecodeError ε :=
  ((do
    let value ← read
    finish
    return value : Reader ε) bytes).1

variable {read} {bytes : Bytes}

theorem whole_of_ok {value : ε} {rest : Bytes} (h : read bytes = (.ok value, rest)) :
    read.whole bytes =
      if rest = [] then .ok value else .error (.trailingBytes rest.length) := by
  unfold whole
  rw [bind_apply, h]
  cases rest <;> rfl

theorem whole_of_error {reason : DecodeError} {rest : Bytes}
    (h : read bytes = (.error reason, rest)) : read.whole bytes = .error reason := by
  unfold whole
  rw [bind_apply, h]

theorem whole_eq_ok {value : ε} : read.whole bytes = .ok value ↔ read bytes = (.ok value, []) := by
  cases hread : read bytes with
  | mk answer rest =>
    cases answer with
    | error reason => simp [whole_of_error hread]
    | ok found =>
      rw [whole_of_ok hread]
      split_ifs with hrest <;> simp [hrest]

/-- A buffer is refused for what the reader says, or for what the reader leaves. -/
theorem whole_eq_error {reason : DecodeError} : read.whole bytes = .error reason ↔
    (read bytes).1 = .error reason ∨
      ∃ value rest, read bytes = (.ok value, rest) ∧ rest ≠ [] ∧
        reason = .trailingBytes rest.length := by
  cases hread : read bytes with
  | mk answer rest =>
    cases answer with
    | error found => simp [whole_of_error hread]
    | ok found =>
      rw [whole_of_ok hread]
      split_ifs with hrest
      · simp [hrest]
      · simp [hrest, eq_comm]

end Wire.Reader

theorem Wire.Schema.decode_eq_whole (schema : Schema) (t : Ty) :
    schema.decode t = (schema.read t).whole := rfl

namespace Host

/-! ## The answers to a status -/

/-- What a status means to a caller whose error is read with `read`, by its code and the bytes of
its payload; `value` is what the entry point returned. -/
inductive Means {α ε : Type} (read : Wire.Reader ε) (value : α) (bytes : Bytes) :
    Int → Except (CallError ε) α → Prop where
  | success : Means read value bytes 0 (.ok value)
  | domain {error : ε} : read bytes = (.ok error, []) →
      Means read value bytes 1 (.error (.domain error))
  | unreadable {reason : Wire.DecodeError} : (read bytes).1 = .error reason →
      Means read value bytes 1 (.error (.fault (.decode reason)))
  | trailing {error : ε} {rest : Bytes} : read bytes = (.ok error, rest) → rest ≠ [] →
      Means read value bytes 1 (.error (.fault (.decode (.trailingBytes rest.length))))
  | doubleFault : bytes = [] → Means read value bytes 2 (.error (.fault .doubleFault))
  | nativePanic : bytes ≠ [] →
      Means read value bytes 2 (.error (.fault (.nativePanic bytes.toTextLossy)))
  | cancelled : Means read value bytes 3 (.error .cancelled)
  | unknown {code : Int} : code < 0 ∨ 3 < code →
      Means read value bytes code (.error (.fault (.unknownStatus code)))

/-- What a status means to a caller that expects no error. -/
inductive MeansPlainly {α : Type} (value : α) (bytes : Bytes) : Int → Except Fault α → Prop where
  | success : MeansPlainly value bytes 0 (.ok value)
  | unexpectedDomainError : MeansPlainly value bytes 1 (.error .unexpectedDomainError)
  | doubleFault : bytes = [] → MeansPlainly value bytes 2 (.error .doubleFault)
  | nativePanic : bytes ≠ [] →
      MeansPlainly value bytes 2 (.error (.nativePanic bytes.toTextLossy))
  | unknown {code : Int} : code < 0 ∨ 2 < code →
      MeansPlainly value bytes code (.error (.unknownStatus code))

section Classifications

variable {ε : Type} (decode : Bytes → Except Wire.DecodeError ε) (payload : Buffer)

theorem classify_outside {n : Int} (h : n < 0 ∨ 3 < n) :
    classify decode ⟨n, payload⟩ = .error (.fault (.unknownStatus n)) := by
  simp only [classify, ResultCode.ofRaw?_outside h]

theorem classifyInfallible_outside {n : Int} (h : n < 0 ∨ 3 < n) :
    classifyInfallible ⟨n, payload⟩ = .error (.unknownStatus n) := by
  simp only [classifyInfallible, ResultCode.ofRaw?_outside h]

theorem classify_error_of_error {reason : Wire.DecodeError}
    (h : decode payload.bytes = .error reason) :
    classify decode ⟨ResultCode.error.raw, payload⟩ = .error (.fault (.decode reason)) := by
  have hcode : ResultCode.ofRaw? ResultCode.error.raw = some .error := rfl
  simp only [classify, hcode, h]

theorem classifyInfallible_unexpected : classifyInfallible ⟨ResultCode.unexpected.raw, payload⟩ =
    .error (panicFault payload.bytes) := rfl

theorem panicFault_nil : panicFault [] = .doubleFault := rfl

theorem panicFault_of_ne_nil {bytes : Bytes} (h : bytes ≠ []) :
    panicFault bytes = .nativePanic bytes.toTextLossy :=
  if_neg (by simpa using h)

end Classifications

section Verdicts

variable {α ε : Type} (read : Wire.Reader ε) (value : α)

/-- One case for each code with a meaning, and one for all others. -/
theorem means_classify (status : CallStatus) :
    Means read value status.payload.bytes status.code
      ((classify read.whole status).map fun () => value) := by
  obtain ⟨code, payload⟩ := status
  obtain rfl | rfl | rfl | rfl | houtside := ResultCode.eq_or_outside code
  · exact .success
  · cases hdecode : read.whole payload.bytes with
    | ok error =>
      rw [classify_error _ _ hdecode]
      exact .domain (Wire.Reader.whole_eq_ok.1 hdecode)
    | error reason =>
      rw [classify_error_of_error _ _ hdecode]
      obtain hread | ⟨error, rest, hread, hrest, rfl⟩ := Wire.Reader.whole_eq_error.1 hdecode
      · exact .unreadable hread
      · exact .trailing hread hrest
  · rw [classify_unexpected]
    by_cases hempty : payload.bytes = []
    · rw [hempty, panicFault_nil]
      exact .doubleFault rfl
    · rw [panicFault_of_ne_nil hempty]
      exact .nativePanic hempty
  · exact .cancelled
  · rw [classify_outside _ _ houtside]
    exact .unknown houtside

theorem meansPlainly_classify (status : CallStatus) :
    MeansPlainly value status.payload.bytes status.code
      ((classifyInfallible status).map fun () => value) := by
  obtain ⟨code, payload⟩ := status
  obtain rfl | rfl | rfl | rfl | houtside := ResultCode.eq_or_outside code
  · exact .success
  · exact .unexpectedDomainError
  · rw [classifyInfallible_unexpected]
    by_cases hempty : payload.bytes = []
    · rw [hempty, panicFault_nil]
      exact .doubleFault rfl
    · rw [panicFault_of_ne_nil hempty]
      exact .nativePanic hempty
  · exact .unknown (.inr (by show (2 : Int) < 3; decide))
  · rw [classifyInfallible_outside _ houtside]
    exact .unknown (houtside.imp_right (lt_trans (show (2 : Int) < 3 by decide)))

variable {read value} {bytes : Bytes} {code : Int}

/-- No status means two things. -/
theorem Means.unique {first second : Except (CallError ε) α}
    (h₁ : Means read value bytes code first) (h₂ : Means read value bytes code second) :
    first = second := by
  cases h₁ <;> cases h₂ <;> simp_all

theorem MeansPlainly.unique {first second : Except Fault α}
    (h₁ : MeansPlainly value bytes code first) (h₂ : MeansPlainly value bytes code second) :
    first = second := by
  cases h₁ <;> cases h₂ <;> simp_all

/-- The two callers differ about two codes only. -/
theorem MeansPlainly.means {answer : Except Fault α} (h : MeansPlainly value bytes code answer)
    (hdomain : code ≠ 1) (hcancelled : code ≠ 3) :
    Means read value bytes code (answer.mapError .fault) := by
  cases h with
  | success => exact .success
  | unexpectedDomainError => exact absurd rfl hdomain
  | doubleFault hempty => exact .doubleFault hempty
  | nativePanic hempty => exact .nativePanic hempty
  | unknown houtside => exact .unknown (by omega)

end Verdicts

/-! ## What is given back -/

/-- Whether every buffer that is given back is accepted, with the status left as it was. -/
def Session.AcceptsBuffers {σ : Type} (s : Session σ) : Prop := ∀ reply ∈ s.freeReplies, reply = {}

theorem releaseWith_accepted {replies : List CallStatus} (h : ∀ reply ∈ replies, reply = {})
    (buffer : Buffer) : (releaseWith replies buffer).1 = buffer.owned.map .free := by
  cases buffer with
  | null => cases replies <;> rfl
  | allocated a =>
    cases replies with
    | nil => rfl
    | cons reply replies =>
      obtain rfl := h reply List.mem_cons_self
      cases replies <;> rfl

theorem Buffer.freed_owned (buffer : Buffer) :
    Trace.freed (buffer.owned.map .free) = buffer.owned := by
  cases buffer <;> rfl

namespace HostM

variable {σ α ε : Type} {s : Session σ}

theorem release_trace (h : s.AcceptsBuffers) (buffer : Buffer) :
    ((release buffer).run s).2.trace = s.trace ++ buffer.owned.map .free := by
  rw [← releaseWith_accepted h]
  rfl

theorem release_freed (h : s.AcceptsBuffers) (buffer : Buffer) :
    ((release buffer).run s).2.trace.freed = s.trace.freed ++ buffer.owned := by
  rw [release_trace h, Trace.freed_append, Buffer.freed_owned]

theorem absorb_accepts (h : s.AcceptsBuffers) (trace : Trace) :
    ((absorb trace).run s).2.AcceptsBuffers := by
  unfold Session.AcceptsBuffers
  rw [(absorb_freed trace s).2]
  exact h

theorem callFallible_freed (h : s.AcceptsBuffers) (decode : Bytes → Except Wire.DecodeError ε)
    (transition : σ → Reply α × σ) :
    ((callFallible decode transition).run s).2.trace.freed =
      s.trace.freed ++ (transition s.core).1.trace.freed ++
        (transition s.core).1.status.payload.owned := by
  let s₁ : Session σ := { s with core := (transition s.core).2 }
  have hfreed : ((absorb (transition s.core).1.trace).run s₁).2.trace.freed =
      s.trace.freed ++ (transition s.core).1.trace.freed := (absorb_freed _ _).1
  have haccepts : s₁.AcceptsBuffers := h
  rw [← hfreed]
  exact release_freed (absorb_accepts haccepts _) _

theorem call_freed (h : s.AcceptsBuffers) (transition : σ → Reply α × σ) (shown : α → Trace) :
    ((call transition shown).run s).2.trace.freed =
      s.trace.freed ++ (transition s.core).1.trace.freed ++
        (shown (transition s.core).1.value).freed ++
        (transition s.core).1.status.payload.owned := by
  let s₁ : Session σ := { s with core := (transition s.core).2 }
  let s₂ : Session σ := ((absorb (transition s.core).1.trace).run s₁).2
  let s₃ : Session σ := { s₂ with trace := s₂.trace ++ shown (transition s.core).1.value }
  have hfreed : s₃.trace.freed = s.trace.freed ++ (transition s.core).1.trace.freed ++
      (shown (transition s.core).1.value).freed := by
    rw [Trace.freed_append, (absorb_freed _ _).1]
  have haccepts : s₁.AcceptsBuffers := h
  have haccepts₃ : s₃.AcceptsBuffers := absorb_accepts haccepts _
  rw [← hfreed]
  exact release_freed haccepts₃ _

end HostM

/-- What a status means is settled by its code and its payload, and its payload is given back
whatever that is. Let buffers that are given back be accepted, and let `read` read the errors of
any type. Whoever checks a status that was written elsewhere, or calls an entry point whose error
is read with `read`, or one that declares no error, is answered just what `Means` and
`MeansPlainly` list, which agree but for the codes of errors and of cancellations. Apart from what
the entry point and its return show, the payload is given back, once if it has an allocation and
not at all if it is null. -/
theorem status_settled {σ α ε : Type} (read : Wire.Reader ε) (status : CallStatus)
    (transition : σ → Reply α × σ) (shown : α → Trace) {s : Session σ} (h : s.AcceptsBuffers) :
    let reply := (transition s.core).1
    let checked := (HostM.checkStatus read.whole status).run s
    let fallible := (HostM.callFallible read.whole transition).run s
    let plain := (HostM.call transition shown).run s
    (∀ answer, checked.1 = answer ↔ Means read () status.payload.bytes status.code answer) ∧
    checked.2.trace = s.trace ++ status.payload.owned.map .free ∧
    (∀ answer, fallible.1 = answer ↔
      Means read reply.value reply.status.payload.bytes reply.status.code answer) ∧
    fallible.2.trace.freed =
      s.trace.freed ++ reply.trace.freed ++ reply.status.payload.owned ∧
    (∀ answer, plain.1 = answer ↔
      MeansPlainly reply.value reply.status.payload.bytes reply.status.code answer) ∧
    plain.2.trace.freed = s.trace.freed ++ reply.trace.freed ++ (shown reply.value).freed ++
      reply.status.payload.owned ∧
    (reply.status.code ≠ 1 → reply.status.code ≠ 3 →
      fallible.1 = plain.1.mapError .fault) := by
  intro reply checked fallible plain
  have hchecked : Means read () status.payload.bytes status.code checked.1 := by
    have hmeans := means_classify read () status
    have hmap : (classify read.whole status).map (fun () => ()) = classify read.whole status := by
      cases classify read.whole status <;> rfl
    rwa [hmap] at hmeans
  have hfallible : Means read reply.value reply.status.payload.bytes reply.status.code fallible.1 :=
    means_classify read reply.value reply.status
  have hplain : MeansPlainly reply.value reply.status.payload.bytes reply.status.code plain.1 :=
    meansPlainly_classify reply.value reply.status
  refine ⟨?_, HostM.release_trace h _, ?_, HostM.callFallible_freed h _ _, ?_,
    HostM.call_freed h _ _, ?_⟩
  · intro answer
    exact ⟨fun heq => heq ▸ hchecked, hchecked.unique⟩
  · intro answer
    exact ⟨fun heq => heq ▸ hfallible, hfallible.unique⟩
  · intro answer
    exact ⟨fun heq => heq ▸ hplain, hplain.unique⟩
  · intro hdomain hcancelled
    exact hfallible.unique (hplain.means hdomain hcancelled)

/-- A panic that could not say why, with a payload that has an allocation and no bytes. -/
def muteEntry : Unit → Reply Nat × Unit := fun core =>
  ({ value := 0, status := ⟨2, .allocated ⟨5, [], 8⟩⟩ }, core)

/-- It is a double fault to every caller, and its payload is given back all the same. -/
theorem status_settled_mute :
    let s : Session Unit := { core := (), freeReplies := [{}] }
    let fallible := (HostM.callFallible (Wire.Schema.decode [] .text) muteEntry).run s
    let plain := (HostM.call muteEntry).run s
    s.AcceptsBuffers ∧
      fallible.1 = .error (.fault .doubleFault) ∧
      plain.1 = .error .doubleFault ∧
      fallible.2.trace.freed = [.allocated ⟨5, [], 8⟩] ∧
      plain.2.trace.freed = [.allocated ⟨5, [], 8⟩] := by
  intro s fallible plain
  have haccepts : s.AcceptsBuffers := by
    intro reply hreply
    exact List.mem_singleton.1 hreply
  obtain ⟨_, _, hmeans, hfreed, hmeansPlainly, hfreedPlainly, _⟩ :=
    status_settled (Wire.Schema.read [] .text) {} muteEntry (fun _ => []) haccepts
  simp only [← Wire.Schema.decode_eq_whole] at hmeans hfreed
  exact ⟨haccepts, (hmeans _).2 (.doubleFault rfl), (hmeansPlainly _).2 (.doubleFault rfl),
    hfreed, hfreedPlainly⟩

end Host
end CoreBridge
