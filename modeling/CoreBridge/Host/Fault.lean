import CoreBridge.Wire.Value
import CoreBridge.Wire.Error

/-!
# Faults

A fault is a failure of the boundary rather than of the operation called: a
panic of the core, a misuse of a released object, or a disagreement of host and
core. A call that can fail answers with a domain error, a cancellation or a
fault.
-/
namespace CoreBridge.Host

/-- A failure of the boundary. -/
inductive Fault where
  /-- The core panicked with this text. -/
  | nativePanic (message : String)
  /-- The core panicked and could not say why. -/
  | doubleFault
  | unknownStatus (code : Int)
  /-- An operation that declares no error reported one. -/
  | unexpectedDomainError
  | decode (error : Wire.DecodeError)
  | encode (error : Wire.EncodeError)
  | unknownHandle (handle : Nat)
  | unknownCallbackMethod (contract : String) (method : Nat)
  /-- A dispatch arrived for a contract that was never registered. -/
  | callbackNotRegistered (contract : String)
  | objectDestroyed (typeName : String)
  | callCounterOverflow (typeName : String)
  | missingSymbol (symbol : String)
  | contractVersionMismatch (expected found : Nat)
  | checksumMismatch (symbol : String) (expected found : Nat)
  | wakeChannelClosed
deriving DecidableEq, Repr

namespace Fault

def message : Fault → String
  | nativePanic text => s!"native core panicked: {text}"
  | doubleFault => "native core panicked and no message was available"
  | unknownStatus code => s!"unknown call status code {code}"
  | unexpectedDomainError => "domain error reported by an infallible operation"
  | decode error => s!"failed to decode buffer: {error.message}"
  | encode error => s!"failed to encode value: {error.message}"
  | unknownHandle handle => s!"unknown callback handle {handle}"
  | unknownCallbackMethod contract method =>
    s!"callback contract '{contract}' has no method {method}"
  | callbackNotRegistered contract => s!"callback contract '{contract}' is not registered"
  | objectDestroyed typeName => s!"{typeName} object has already been destroyed"
  | callCounterOverflow typeName => s!"{typeName} object call counter overflowed"
  | missingSymbol symbol => s!"core library does not export '{symbol}'"
  | contractVersionMismatch expected found =>
    s!"contract version mismatch: host expects {expected}, core reports {found}"
  | checksumMismatch symbol expected found =>
    s!"checksum mismatch for '{symbol}': host expects {expected}, core reports {found}"
  | wakeChannelClosed => "wake channel closed before the continuation fired"

/-- Whether the fault means that host and core disagree on the protocol. -/
def isProtocolViolation : Fault → Bool
  | unknownStatus _ | unexpectedDomainError | decode _ | unknownHandle _
  | unknownCallbackMethod .. | missingSymbol _ | contractVersionMismatch ..
  | checksumMismatch .. => true
  | _ => false

end Fault

/-- Why a fallible call did not return. -/
inductive CallError (ε : Type) where
  /-- The operation failed with its declared error. -/
  | domain (error : ε)
  | cancelled
  | fault (fault : Fault)
deriving DecidableEq, Repr

namespace CallError

variable {ε : Type}

/-- The text of the error; `describe` gives that of a domain error. -/
def message (describe : ε → String) : CallError ε → String
  | domain error => describe error
  | cancelled => "call was cancelled"
  | fault f => f.message

def domain? : CallError ε → Option ε
  | domain error => some error
  | _ => none

def fault? : CallError ε → Option Fault
  | fault f => some f
  | _ => none

def isCancelled : CallError ε → Bool
  | cancelled => true
  | _ => false

end CallError
end CoreBridge.Host
