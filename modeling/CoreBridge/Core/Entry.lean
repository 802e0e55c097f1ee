import CoreBridge.Boundary.Status
import CoreBridge.Panic
import CoreBridge.Wire.Writer

/-!
# Running the body of an entry point

No panic leaves the core. An entry point runs its body and reports through the
status of its caller: nothing on success, the wire form of a domain error, or
the text of a panic. Unless it succeeds it returns the default of its type. A
payload without bytes is the null buffer.
-/
namespace CoreBridge.Core

/-- What the body of an entry point comes to. -/
inductive Outcome (α : Type) where
  | returned (value : α)
  /-- The operation failed with a domain error. -/
  | failed (error : Wire.Value)
  | panicked (panic : Panic)

/-- A payload buffer; one without bytes has no allocation. -/
def payloadBuffer (heap : Heap) (payload : Bytes) : Buffer × Heap :=
  if payload.isEmpty then (.null, heap) else heap.store payload

/-- Writes a status; without an out-parameter to write to, the code is lost and logged. -/
def writeStatus {α : Type} (hasStatus : Bool) (code : ResultCode) (payload : Bytes) (fallback : α)
    (heap : Heap) : Reply α × Heap :=
  if hasStatus then
    let (buffer, heap) := payloadBuffer heap payload
    ({ value := fallback, status := ⟨code.raw, buffer⟩ }, heap)
  else
    ({ value := fallback
       trace := [.log .error
        s!"Core entry point called without a status out-parameter (code {code.name} lost)"] },
      heap)

/-- Reports a panic, with a log record. -/
def writePanic {α : Type} (hasStatus : Bool) (message : String) (fallback : α) (heap : Heap) :
    Reply α × Heap :=
  let (reply, heap) := writeStatus hasStatus .unexpected (Bytes.ofText message) fallback heap
  let record := .log .error s!"Panic in core entry point: {message}"
  ({ reply with trace := record :: reply.trace }, heap)

/-- Runs a body that may fail with a domain error. -/
def run {α : Type} (hasStatus : Bool) (fallback : α) (body : Outcome α) (heap : Heap) :
    Reply α × Heap :=
  match body with
  | .returned value => ({ value }, heap)
  | .panicked panic => writePanic hasStatus panic.message fallback heap
  | .failed error =>
    match Wire.encode error with
    | .ok bytes => writeStatus hasStatus .error bytes fallback heap
    | .error reason =>
      writePanic hasStatus s!"failed to encode error: {reason.message}" fallback heap

/-- The types that entry points return. -/
inductive ReturnType where
  | scalar (k : Wire.Scalar)
  | bool
  | unit
  | buffer
  | pointer
deriving DecidableEq, Repr

/-- A value that an entry point returns. -/
inductive Returned where
  | scalar (k : Wire.Scalar) (word : k.Word)
  | bool (b : Bool)
  | unit
  | buffer (b : Buffer)
  | pointer (address : Nat)

/-- What an entry point returns unless it succeeds: zeros and null. -/
def ReturnType.default : ReturnType → Returned
  | scalar k => .scalar k 0
  | bool => .bool false
  | unit => .unit
  | buffer => .buffer .null
  | pointer => .pointer 0

end CoreBridge.Core
