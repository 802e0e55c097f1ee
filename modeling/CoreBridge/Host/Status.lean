import CoreBridge.Boundary.Status
import CoreBridge.Host.Fault
import CoreBridge.Text.Lossy

/-!
# Classifying a status

What the status of a call says depends on whether the operation declares an
error: if it does, code 1 carries one and code 3 is a cancellation; if not, the
first is a protocol violation and the second a code like any unknown one. In
every other respect the two classifications agree.
-/
namespace CoreBridge.Host

/-- The fault that a panic payload stands for: its text, if there is any. -/
def panicFault (payload : Bytes) : Fault :=
  if payload.isEmpty then .doubleFault else .nativePanic payload.toTextLossy

/-- Classifies the status of an operation that declares no error. -/
def classifyInfallible (status : CallStatus) : Except Fault Unit :=
  match ResultCode.ofRaw? status.code with
  | some .success => .ok ()
  | some .error => .error .unexpectedDomainError
  | some .unexpected => .error (panicFault status.payload.bytes)
  | some .cancelled | none => .error (.unknownStatus status.code)

/-- Classifies the status of an operation whose error is read with `decode`. -/
def classify {ε : Type} (decode : Bytes → Except Wire.DecodeError ε) (status : CallStatus) :
    Except (CallError ε) Unit :=
  match ResultCode.ofRaw? status.code with
  | some .success => .ok ()
  | some .error =>
    match decode status.payload.bytes with
    | .ok error => .error (.domain error)
    | .error reason => .error (.fault (.decode reason))
  | some .unexpected => .error (.fault (panicFault status.payload.bytes))
  | some .cancelled => .error .cancelled
  | none => .error (.fault (.unknownStatus status.code))

end CoreBridge.Host
