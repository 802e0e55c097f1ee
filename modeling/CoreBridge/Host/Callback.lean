import CoreBridge.Core.Proxy
import CoreBridge.Host.CoreBuffer
import CoreBridge.Host.HandleTable
import CoreBridge.Host.Runtime
import CoreBridge.Wire.Writer

/-!
# Calls back into the host

A callback contract is an interface of host objects that the core can invoke.
The host registers it once, which installs its dispatch function in the core,
and passes objects as handles. A dispatch resolves the handle, checks the
arguments, runs the method and writes the result into a buffer of the core.
Method zero releases the handle and does nothing else.
-/
namespace CoreBridge.Host

/-- How a method of a host object fails. -/
inductive CallbackFailure where
  /-- A domain error in its wire form. -/
  | error (bytes : Bytes)
  | unexpected (message : String)
  | cancelled
  /-- The core sent something the contract does not allow. -/
  | protocol (fault : Fault)
deriving DecidableEq, Repr

/-- The failure that reports a domain error. -/
def CallbackFailure.ofError (error : Wire.Value) : CallbackFailure :=
  match Wire.encode error with
  | .ok bytes => .error bytes
  | .error reason => .protocol (.encode reason)

/-- How a method stops before its end. -/
inductive Stop where
  | failed (failure : CallbackFailure)
  | panicked (panic : Panic)

/-- What a method works on: the arguments not yet read, the result written so
far, the handle table of its contract and the objects of the host. -/
structure Frame (θ η : Type) where
  args : Bytes
  out : Bytes := []
  table : HandleTable θ
  objects : η

/-- The body of a method. -/
abbrev MethodM (θ η : Type) := ExceptT Stop (StateM (Frame θ η))

namespace MethodM

variable {θ η α : Type}

def fail (failure : CallbackFailure) : MethodM θ η α := throw (.failed failure)

def panic (panic : Panic) : MethodM θ η α := throw (.panicked panic)

/-- Reads from the arguments; what cannot be read is a protocol violation. -/
def read (reader : Wire.Reader α) : MethodM θ η α := do
  let frame ← get
  let (answer, args) := reader frame.args
  set { frame with args }
  match answer with
  | .ok a => return a
  | .error error => fail (.protocol (.decode error))

/-- Writes to the result. -/
def write (emission : Wire.Emission) : MethodM θ η Unit := do
  modify fun frame => { frame with out := frame.out ++ emission.bytes }
  if let some error := emission.failure then fail (.protocol (.encode error))

end MethodM

/-- A callback interface. -/
structure Contract (θ η : Type) where
  name : String
  invoke : Instance θ → (method : Nat) → MethodM θ η Unit

/-- The method is not one of the contract. -/
def Contract.unknownMethod {θ η : Type} (contract : String) (method : Nat) : MethodM θ η Unit :=
  MethodM.fail (.protocol (.unknownCallbackMethod contract method))

/-- What the host keeps for a contract: the objects passed to the core and the
runtime whose core results are written to. -/
structure Slot (θ : Type) where
  table : HandleTable θ := {}
  runtime : Option Runtime := none

def Slot.isRegistered {θ : Type} (s : Slot θ) : Bool := s.runtime.isSome

/-- A session together with what calls back into the host reach. -/
structure Exchange (σ θ η : Type) where
  session : Session σ
  slot : Slot θ := {}
  objects : η
  /-- The dispatch functions installed in the core. -/
  contracts : Core.Contracts := {}

abbrev CallbackM (σ θ η : Type) := StateM (Exchange σ θ η)

namespace CallbackM

variable {σ θ η α : Type}

/-- Runs a step of the host. -/
def onHost (step : HostM σ α) : CallbackM σ θ η α := do
  let e ← get
  let (a, session) := step e.session
  set { e with session }
  return a

def observe (trace : Trace) : CallbackM σ θ η Unit := onHost (HostM.observe trace)

def log (level : Level) (text : String) : CallbackM σ θ η Unit := observe [.log level text]

/-- Runs a method on its arguments. Its effects stay, however it ends. -/
def runMethod (contract : Contract θ η) (target : Instance θ) (method : Nat) (args : Bytes) :
    CallbackM σ θ η (Except Stop Bytes) := do
  let e ← get
  let body : MethodM θ η Unit := do
    contract.invoke target method
    let frame ← getThe (Frame θ η)
    if frame.args ≠ [] then
      MethodM.fail (.protocol (.decode (.trailingBytes frame.args.length)))
  let (outcome, frame) :=
    body { args, table := e.slot.table, objects := e.objects }
  set { e with slot := { e.slot with table := frame.table }, objects := frame.objects }
  return outcome.map fun () => frame.out

/-- The bytes that the core lends as arguments: the length must not be negative
and only an empty region may be null. -/
def arguments (args : Option Bytes) (length : Int) : Except Wire.DecodeError Bytes :=
  if length < 0 then .error (.negativeLength length)
  else match args with
    | some bytes => .ok (bytes.take length.toNat)
    | none => if length = 0 then .ok [] else .error (.unexpectedEnd length.toNat 0)

/-- Resolves the handle, checks the arguments and runs the method. -/
def invoke (contract : Contract θ η) (handle method : Nat) (args : Option Bytes) (length : Int) :
    CallbackM σ θ η (Except Stop Bytes) := do
  let violation (fault : Fault) : Except Stop Bytes := .error (.failed (.protocol fault))
  match (← get).slot.table.get handle with
  | .error fault => return violation fault
  | .ok target =>
    match arguments args length with
    | .error error => return violation (.decode error)
    | .ok bytes => runMethod contract target method bytes

/-- The code and payload that report how a method ended, with a log record for
what should not have happened. -/
def report (contract : String) (handle method : Nat) :
    Except Stop Bytes → ResultCode × Bytes × Trace
  | .ok bytes => (.success, bytes, [])
  | .error (.failed (.error bytes)) => (.error, bytes, [])
  | .error (.failed (.unexpected message)) => (.unexpected, Bytes.ofText message, [])
  | .error (.failed .cancelled) => (.cancelled, [], [])
  | .error (.failed (.protocol fault)) =>
    let place := s!"'{contract}' method {method} on handle {handle}"
    (.unexpected, Bytes.ofText fault.message,
      [.log .error s!"Protocol violation dispatching {place}: {fault.message}"])
  | .error (.panicked panic) =>
    (.unexpected, Bytes.ofText panic.message,
      [.log .error s!"Callback '{contract}' method {method} panicked: {panic.message}"])

/-- Writes a payload out, in a buffer of the core. The answer is none if there
is nowhere to write to. -/
def writeOut (core : Core.EntryPoints σ) (contract : String) (hasOut : Bool) (payload : Bytes) :
    CallbackM σ θ η (Except Fault (Option Buffer)) := do
  if !hasOut then
    log .error s!"Core dispatched '{contract}' without an out buffer"
    return .ok none
  if payload.isEmpty then return .ok (some .null)
  if !(← get).slot.isRegistered then return .error (.callbackNotRegistered contract)
  return (← onHost (CoreBuffer.fromBytes core payload)).map fun b => some b.intoRaw

/-- The dispatch function of a contract: the result code, and the buffer
written out unless the out buffer is left alone. -/
def dispatch (core : Core.EntryPoints σ) (contract : Contract θ η) (handle method : Nat)
    (args : Option Bytes) (length : Int) (hasOut : Bool) :
    CallbackM σ θ η (Int × Option Buffer) := do
  if method = releaseMethod then
    let e ← get
    let (removed, table) := e.slot.table.remove handle
    set { e with slot := { e.slot with table } }
    if removed.isNone then
      log .debug s!"Callback handle {handle} of '{contract.name}' already released"
    return (ResultCode.success.raw, none)
  let (code, payload, trace) :=
    report contract.name handle method (← invoke contract handle method args length)
  observe trace
  match ← writeOut core contract.name hasOut payload with
  | .ok out => return (code.raw, out)
  | .error fault =>
    log .error s!"Failed to return result of '{contract.name}' method {method}: {fault.message}"
    return (ResultCode.unexpected.raw, none)

/-- How the core reaches the dispatch function of a contract: always with an out buffer. -/
def dispatcher (core : Core.EntryPoints σ) (contract : Contract θ η) :
    Core.Dispatcher (CallbackM σ θ η) where
  dispatch _ handle method args length := do
    let (code, out) ← dispatch core contract handle method args length true
    return (code, out.getD .null)
  note := observe

/-- Hands an object to the core under a handle. -/
def lower (i : Instance θ) : CallbackM σ θ η Nat := do
  let e ← get
  let (handle, table) := e.slot.table.insert i
  set { e with slot := { e.slot with table } }
  return handle

/-- The core's entry point that installs a dispatch function. -/
def installDispatch (contract : String) : CallbackM σ θ η CallStatus := do
  let e ← get
  let (contracts, trace) := e.contracts.init contract contract
  set { e with contracts }
  observe trace
  return {}

/-- Installs the dispatch function of a contract in the core of `r`, unless a
core has it already; `init` is the entry point that installs it. -/
def register (contract : Contract θ η) (r : Runtime) (init : CallbackM σ θ η CallStatus) :
    CallbackM σ θ η (Except Fault Unit) := do
  match (← get).slot.runtime with
  | some existing =>
    if !existing.sameCore r then
      log .warn s!"Callback contract '{contract.name}' is already registered with another core"
    return .ok ()
  | none =>
    match ← onHost (r.symbol (r.symbolPrefix ++ "callback_init_" ++ contract.name)) with
    | .error fault => return .error fault
    | .ok _ =>
      observe [.contractInit]
      let status ← init
      onHost (HostM.release status.payload)
      match classifyInfallible status with
      | .error fault => return .error fault
      | .ok () =>
        modify fun e => { e with slot := { e.slot with runtime := some r } }
        log .debug s!"Registered callback contract '{contract.name}'"
        return .ok ()

end CallbackM
end CoreBridge.Host
