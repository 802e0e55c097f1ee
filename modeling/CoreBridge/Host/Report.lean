import CoreBridge.Boundary.Status
import CoreBridge.Core.Proxy
import CoreBridge.Host.Fault
import CoreBridge.Json.Basic
import CoreBridge.Wire.Notation

/-!
# Reports

Tools show failures, statuses and traces in JSON. A failure is reported with a
name for its kind and its message; a fault can also be read back from its kind
and its arguments.
-/
namespace CoreBridge

abbrev Report := List (String × Json)

namespace Report

/-- The report of a failure. -/
def failure (kind message : String) : Report := [("error", .text kind), ("message", .text message)]

/-- A number as text. -/
def digits (n : Int) : Json := .text (toString n)

end Report

namespace Wire

def DecodeError.kind : DecodeError → String
  | unexpectedEnd .. => "UnexpectedEof"
  | negativeLength _ => "NegativeLength"
  | invalidBool _ => "InvalidBool"
  | invalidPresence _ => "InvalidPresenceFlag"
  | invalidText => "InvalidUtf8"
  | unknownDiscriminant .. => "UnknownDiscriminant"
  | trailingBytes _ => "TrailingBytes"
  | invalidValue .. => "InvalidValue"

def EncodeError.kind : EncodeError → String
  | lengthOverflow _ => "LengthOverflow"
  | invalidValue .. => "InvalidValue"

def DecodeError.report (e : DecodeError) : Report := Report.failure e.kind e.message

def EncodeError.report (e : EncodeError) : Report := Report.failure e.kind e.message

end Wire

namespace Core

def ProxyError.kind : ProxyError → String
  | error _ => "Error"
  | unexpected _ => "Unexpected"
  | cancelled => "Cancelled"
  | unknownCode _ => "UnknownCode"
  | reservedMethod _ => "ReservedMethod"
  | argumentsTooLarge _ => "ArgumentsTooLarge"

/-- The report of a failed invocation, with the bytes of a domain error. -/
def ProxyError.report (e : ProxyError) : Report :=
  Report.failure e.kind e.message ++ match e with
    | error bytes => [("hex", .text bytes.toHex)]
    | _ => []

end Core

namespace Host

namespace Fault

def kind : Fault → String
  | nativePanic _ => "NativePanic"
  | doubleFault => "DoubleFault"
  | unknownStatus _ => "UnknownStatus"
  | unexpectedDomainError => "UnexpectedDomainError"
  | decode _ => "Decode"
  | encode _ => "Encode"
  | unknownHandle _ => "UnknownHandle"
  | unknownCallbackMethod .. => "UnknownCallbackMethod"
  | callbackNotRegistered _ => "CallbackNotRegistered"
  | objectDestroyed _ => "ObjectDestroyed"
  | callCounterOverflow _ => "CallCounterOverflow"
  | missingSymbol _ => "MissingSymbol"
  | contractVersionMismatch .. => "ContractVersionMismatch"
  | checksumMismatch .. => "ChecksumMismatch"
  | wakeChannelClosed => "WakeChannelClosed"

def report (f : Fault) : Report :=
  Report.failure f.kind f.message ++ [("protocol_violation", .bool f.isProtocolViolation)]

/-- A number among the arguments of a report. -/
def number (j : Json) (key : String) : Int := ((j.get? key).bind Wire.numberOf?).getD 0

/-- A text among the arguments of a report. -/
def argument (j : Json) (key : String) : String := ((j.get? key).bind Wire.textOf?).getD ""

/-- The failure to read that has a kind and arguments. -/
def decodeErrorOf? (j : Json) : Option Wire.DecodeError :=
  match argument j "kind" with
  | "UnexpectedEof" => some (.unexpectedEnd (number j "needed").toNat (number j "remaining").toNat)
  | "NegativeLength" => some (.negativeLength (number j "value"))
  | "InvalidBool" => some (.invalidBool (number j "value"))
  | "InvalidPresenceFlag" => some (.invalidPresence (number j "value"))
  | "InvalidUtf8" => some .invalidText
  | "UnknownDiscriminant" =>
    some (.unknownDiscriminant (argument j "type_name") (number j "value"))
  | "TrailingBytes" => some (.trailingBytes (number j "remaining").toNat)
  | "InvalidValue" => some (.invalidValue (argument j "type_name") (argument j "reason"))
  | _ => none

/-- The failure to write that has a kind and arguments. -/
def encodeErrorOf? (j : Json) : Option Wire.EncodeError :=
  match argument j "kind" with
  | "LengthOverflow" => some (.lengthOverflow (number j "len").toNat)
  | "InvalidValue" => some (.invalidValue (argument j "type_name") (argument j "reason"))
  | _ => none

/-- The fault that has a kind and arguments. -/
def ofJson? (j : Json) : Option Fault :=
  let text := argument j "text"
  let expected := (number j "expected").toNat
  let found := (number j "found").toNat
  match argument j "kind" with
  | "NativePanic" => some (.nativePanic text)
  | "DoubleFault" => some .doubleFault
  | "UnknownStatus" => some (.unknownStatus (number j "code"))
  | "UnexpectedDomainError" => some .unexpectedDomainError
  | "Decode" => ((j.get? "cause").bind decodeErrorOf?).map .decode
  | "Encode" => ((j.get? "cause").bind encodeErrorOf?).map .encode
  | "UnknownHandle" => some (.unknownHandle (number j "handle").toNat)
  | "UnknownCallbackMethod" => some (.unknownCallbackMethod text (number j "method").toNat)
  | "CallbackNotRegistered" => some (.callbackNotRegistered text)
  | "ObjectDestroyed" => some (.objectDestroyed text)
  | "CallCounterOverflow" => some (.callCounterOverflow text)
  | "MissingSymbol" => some (.missingSymbol text)
  | "ContractVersionMismatch" => some (.contractVersionMismatch expected found)
  | "ChecksumMismatch" => some (.checksumMismatch text expected found)
  | "WakeChannelClosed" => some .wakeChannelClosed
  | _ => none

end Fault

/-- The report of a failed call, whose domain errors are of type `t`. -/
def CallError.report (schema : Wire.Schema) (t : Wire.Ty) : CallError Wire.Value → Report
  | domain error => [("error", .text "Domain"), ("value", error.toJson schema t)]
  | cancelled => Report.failure "Cancelled" "call was cancelled"
  | fault f => f.report

end Host

/-- A status as it was written: a failure that nothing declared with its text,
any other one with its payload. -/
def CallStatus.report (s : CallStatus) : Report :=
  if s.code = 0 then [("code", .int 0)]
  else [("code", .int s.code), ("null", .bool s.payload.isNull),
    if s.code = 2 then ("text", .text s.payload.bytes.toTextLossy)
    else ("hex", .text s.payload.bytes.toHex)]

namespace Trace

/-- The log records of a trace, each after its level. -/
def logReport (trace : Trace) : Json :=
  .list (trace.logs.map fun (level, text) => .text s!"{level.name} {text}")

/-- The calls and continuations of a trace as lists, with `futureName` for the
futures of tasks; what is not a call is left out. -/
def callReport (futureName : Nat → String) (trace : Trace) : Json :=
  let call (name : String) (arguments : List Json) : Option Json :=
    some (.list (.text name :: arguments))
  .list (trace.filterMap fun
    | .alloc _ => call "alloc" []
    | .fromBytes _ => call "from_bytes" []
    | .free _ => call "free" []
    | .reserve .. => call "reserve" []
    | .polled task id answer => call "poll" [Report.digits task, .int id, .int answer]
    | .cancel task => call "cancel" [Report.digits task]
    | .complete flavour task => call s!"complete_{flavour.name}" [Report.digits task]
    | .freeTask task => call "future_free" [Report.digits task]
    | .futureDropped task => call "future_dropped" [.text (futureName task)]
    | .started => call "start" []
    | .cloneObject pointer => call "clone_object" [Report.digits pointer]
    | .freeObject pointer => call "free_object" [Report.digits pointer]
    | .contractInit => call "init" []
    | .dispatched dispatch handle method args length =>
      call dispatch [Report.digits handle, .int method, .bool args.isNone, .int length,
        .text (args.getD []).toHex]
    | _ => none)

end Trace
end CoreBridge
