import CoreBridge.Core.Allocator
import CoreBridge.Host.Status
import CoreBridge.Proofs.Wire.RoundTrip
import Mathlib

/-!
# What a report says

The core reports in a code and a payload, and puts a payload without bytes in no
allocation. The host reads the two back. So a text arrives as it was written,
unless it is empty, and an error by the round trip of the wire format.
-/
namespace CoreBridge

/-- What has to be given back of a buffer. -/
def Buffer.owned : Buffer → List Buffer
  | .null => []
  | .allocated a => [.allocated a]

/-- Whether a trace shows nothing but log records. -/
def Trace.OnlyLogs (trace : Trace) : Prop := ∀ o ∈ trace, ∃ level text, o = .log level text

theorem Trace.onlyLogs_nil : OnlyLogs [] := nofun

theorem Trace.onlyLogs_log (level : Level) (text : String) : OnlyLogs [.log level text] :=
  fun _ ho => ⟨level, text, List.mem_singleton.1 ho⟩

namespace Core

variable {α : Type} (heap : Heap) (payload : Bytes)

theorem payloadBuffer_eq : payloadBuffer heap payload =
    if payload = [] then (.null, heap)
    else (.allocated ⟨heap.issued, payload, payload.length⟩, ⟨heap.issued + 1⟩) := by
  unfold payloadBuffer
  cases payload <;> rfl

@[simp] theorem payloadBuffer_bytes : (payloadBuffer heap payload).1.bytes = payload := by
  rw [payloadBuffer_eq]
  split_ifs with hempty
  · exact hempty.symm
  · rfl

namespace Outcome

/-- The code and the payload that an outcome is reported by. -/
def report : Outcome α → ResultCode × Bytes
  | .returned _ => (.success, [])
  | .panicked panic => (.unexpected, Bytes.ofText panic.message)
  | .failed error =>
    match Wire.encode error with
    | .ok bytes => (.error, bytes)
    | .error reason =>
      (.unexpected, Bytes.ofText s!"failed to encode error: {reason.message}")

/-- The value that an entry point returns. -/
def valueOr (fallback : α) : Outcome α → α
  | .returned value => value
  | _ => fallback

end Outcome

/-- What running a body comes to: its report is in the status, and of what
happens meanwhile nothing but log records shows. -/
theorem run_eq (fallback : α) (outcome : Outcome α) : ∃ logs : Trace,
    logs.OnlyLogs ∧ run true fallback outcome heap =
      ({ value := outcome.valueOr fallback
         status := ⟨outcome.report.1.raw, (payloadBuffer heap outcome.report.2).1⟩
         trace := logs }, (payloadBuffer heap outcome.report.2).2) := by
  cases outcome with
  | returned value => exact ⟨[], Trace.onlyLogs_nil, rfl⟩
  | panicked panic => exact ⟨_, Trace.onlyLogs_log _ _, rfl⟩
  | failed error =>
    cases hencode : Wire.encode error with
    | ok bytes =>
      simp only [run, Outcome.report, hencode]
      exact ⟨[], Trace.onlyLogs_nil, rfl⟩
    | error reason =>
      simp only [run, Outcome.report, hencode]
      exact ⟨_, Trace.onlyLogs_log _ _, rfl⟩

end Core

namespace Host

open CoreBridge.Core

/-- The fault that a panic with this text is. -/
def textFault (text : String) : Fault := if text = "" then .doubleFault else .nativePanic text

@[simp] theorem panicFault_ofText (text : String) :
    panicFault (Bytes.ofText text) = textFault text := by
  have hempty : Bytes.ofText text = [] ↔ text = "" := by
    constructor
    · intro h
      exact Bytes.ofText_injective (h.trans (by rfl))
    · rintro rfl
      rfl
  unfold panicFault textFault
  simp only [List.isEmpty_iff, hempty, Bytes.toTextLossy_ofText]

variable {α ε : Type} (decode : Bytes → Except Wire.DecodeError ε) (buffer : Buffer)

@[simp] theorem classify_unexpected : classify decode ⟨ResultCode.unexpected.raw, buffer⟩ =
    .error (.fault (panicFault buffer.bytes)) := rfl

theorem classify_error {error : ε} (h : decode buffer.bytes = .ok error) :
    classify decode ⟨ResultCode.error.raw, buffer⟩ = .error (.domain error) := by
  have hcode : ResultCode.ofRaw? ResultCode.error.raw = some .error := rfl
  simp only [classify, hcode, h]

theorem textFault_of_ne {text : String} (h : text ≠ "") : textFault text = .nativePanic text :=
  if_neg h

theorem textFault_append {first second : String} (h : first ≠ "") :
    textFault (first ++ second) = .nativePanic (first ++ second) := by
  apply textFault_of_ne
  intro hempty
  exact h (String.append_eq_empty_iff.1 hempty).1

end Host
end CoreBridge
