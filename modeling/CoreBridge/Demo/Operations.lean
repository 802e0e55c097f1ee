import CoreBridge.Demo.Listener
import CoreBridge.Host.Async

/-!
# The operations of two small cores

A room core and a greeting core show every kind of operation at work: fallible
and infallible calls, statuses written by hand, tasks, and operations that take
ownership of a callback handle and call back into the host.
-/
namespace CoreBridge.Demo

open CoreBridge.Core CoreBridge.Host CoreBridge.Wire

/-- The body of an entry point returns a buffer that holds the wire form of `v`. -/
def returnValue (what : String) (v : Value) : Outcome Bytes :=
  match encode v with
  | .ok bytes => .returned bytes
  | .error error => .panicked (.text s!"failed to encode {what}: {error.message}")

/-- Runs a body that returns bytes, stored in a buffer of the core. -/
def runReturningBytes (body : Outcome Bytes) (s : State) : Reply Buffer × State :=
  match body with
  | .returned bytes => s.onHeap fun heap =>
    let (buffer, heap) := heap.store bytes
    run true .null (.returned buffer) heap
  | .failed error => s.onHeap (run true .null (.failed error))
  | .panicked panic => s.onHeap (run true .null (.panicked panic))

/-! ## Greeting -/

def greetingPrefix : String := "rivet_demo_"

def greetChecksumSymbol : String := "uniffi_rivet_demo_checksum_fn_greet"

def greetChecksum : Nat := 0x5151

/-- The symbols that the greeting core exports. -/
def greetingSymbols : List String :=
  (runtimeSymbols ++ ["fn_greet", "fn_add_async", "fn_greet_via", "callback_init_greeter"]).map
    (greetingPrefix ++ ·) ++ [greetChecksumSymbol]

/-- Says hello to the name in the buffer. -/
def greetBody (schema : Schema) (name : Bytes) : Outcome Bytes :=
  match schema.decode .text name with
  | .ok (.text name) =>
    if name.isEmpty then .failed (.variant 0 1 [])
    else returnValue "greeting" (.text s!"hello, {name}")
  | .ok _ => .panicked (.text "malformed name")
  | .error error => .panicked (.text s!"malformed name: {error.message}")

def greet (schema : Schema) (name : Buffer) : State → Reply Buffer × State :=
  runReturningBytes (greetBody schema name.bytes)

/-- Starts a task that is pending once and then yields the sum, modulo the width of a word. -/
def addAsync (a b : Nat) (s : State) : Reply Nat × State :=
  s.onTasks (·.spawn (.countdown 1 (.ok (.word ((a + b) % 0x10000000000000000)))))

/-! ## Rooms -/

def roomPrefix : String := "rivet_test_"

def roomChecksumSymbol : String := "uniffi_rivet_test_checksum_fn_room_lookup"

def roomChecksum : Nat := 4242

/-- The symbols that the room core exports. -/
def roomSymbols : List String :=
  (runtimeSymbols ++ ["fn_room_lookup", "fn_explode", "fn_double_fault", "fn_bogus_status",
    "fn_corrupted_error", "fn_trailing_bytes", "callback_init_listener", "fn_notify",
    "fn_ready_value", "fn_countdown", "fn_delayed", "fn_stalled", "fn_room_name_async"]).map
    (roomPrefix ++ ·) ++ [roomChecksumSymbol]

/-- Looks up a room; only the lobby exists. -/
def lookupBody (schema : Schema) (args : Bytes) : Outcome Bytes :=
  match schema.decode (.named "LookupArgs") args with
  | .error error => .panicked (.text s!"malformed lookup arguments: {error.message}")
  | .ok (.record [.text room, _, .record [limit, _]]) =>
    if room = "lobby" then returnValue "room" (.record [.text room, limit])
    else .failed (.variant 1 2 [.text "not found"])
  | .ok _ => .panicked (.text "malformed lookup arguments")

def lookup (schema : Schema) (args : Buffer) : State → Reply Buffer × State :=
  runReturningBytes (lookupBody schema args.bytes)

/-- The entry points that only report a status. -/
inductive StatusOperation where
  | explode | doubleFault | bogusStatus | corruptedError
deriving DecidableEq, Repr

/-- Reports as the operation does and returns zero. -/
def StatusOperation.call (op : StatusOperation) (s : State) : Reply Nat × State :=
  match op with
  | explode => s.onHeap (run true 0 (.panicked (.text "room index corrupted")))
  | doubleFault => ({ value := 0, status := { code := 2 } }, s)
  | bogusStatus => ({ value := 0, status := { code := 9 } }, s)
  | corruptedError => s.onHeap (writeStatus true .error [0, 0, 0, 9] 0)

/-- Returns a room followed by a byte that no reader expects. -/
def trailingBytes : State → Reply Buffer × State :=
  runReturningBytes (.returned
    ((Value.record [.text "lobby", .ofInt .u32 1]).emit.bytes ++ [0xFF]))

/-- Starts a task that is ready on its first poll. -/
def readyValue (value : Nat) (s : State) : Reply Nat × State :=
  s.onTasks (·.spawn (.ready (.ok (.word value))))

/-- Starts a task that wakes itself during each of its `polls` pending polls. -/
def countdown (polls : Nat) (s : State) : Reply Nat × State :=
  s.onTasks (·.spawn (.countdown polls (.ok (.word polls))))

/-- Pending once without waking itself; someone else wakes it later. -/
def delayedFuture : Task.Future Task.TaskResult where
  onPoll
    | 0 => { handsOn := true, ending := .pending }
    | _ => { ending := .ready (.ok .void) }

def delayed (s : State) : Reply Nat × State := s.onTasks (·.spawn delayedFuture)

/-- Starts a task that yields the name of a room, or the error that there is none. -/
def roomName (room : Nat) (s : State) : Reply Nat × State :=
  s.onTasks (·.spawnLowered (.ready
    (if room = 1 then .ok (.text "lobby") else .error (.variant 1 2 [.text "not found"]))))

/-- What a fallible operation of the room core starts, its errors being those of rooms. -/
def roomOperation (schema : Schema) (flavour : Flavour) (start : State → Reply Nat × State) :
    Operation State Value where
  start := start
  flavour := flavour
  decode := schema.decode roomError

/-- Drives a call to its end. Whenever it has to wait, the waker that was handed
on last is woken; the call is given up after `fuel` polls. -/
def await {ε : Type} (op : Operation State ε) :
    (fuel : Nat) → Call ε → HostM State (Option (Except (CallError ε) Collection))
  | 0, _ => return none
  | fuel + 1, call => do
    match ← call.poll machine op 0 pollBudget with
    | .ended result => return some result
    | call =>
      let _ ← HostM.enter fun s => s.onTasks fun tasks =>
        tasks.wakeHandedOn (tasks.handedOn.size - 1)
      await op fuel call

/-! ## Operations that call back -/

/-- What an operation makes of the outcome of the callback it relays. -/
def relayed (who : String) (schema : Schema) (error : Ty) : Except ProxyError Bytes → Outcome Bytes
  | .ok bytes => .returned bytes
  | .error (.error bytes) =>
    match schema.decode error bytes with
    | .ok v => .failed v
    | .error reason => .panicked (.text s!"undecodable {who} error: {reason.message}")
  | .error other => .panicked (.text s!"{who} failed: {other.message}")

/-- Takes ownership of a handle, invokes one method and releases the handle,
whatever came of it. -/
def relay {m : Type → Type} [Monad m] (dispatcher : Dispatcher m) (contracts : Contracts)
    (who : String) (schema : Schema) (error : Ty) (handle method : Nat) (args : Bytes) :
    m (Outcome Bytes) := do
  match Proxy.forContract? contracts who handle with
  | none => return .panicked (.text s!"{who} contract was never initialized")
  | some proxy =>
    let outcome ← proxy.invoke dispatcher method args
    proxy.drop dispatcher
    return relayed who schema error outcome

/-- Calls the operation that relays to a host object of the contract. -/
def callRelay {θ η : Type} (contract : Contract θ η) (schema : Schema) (error : Ty)
    (handle method : Nat) (args : Buffer) :
    CallbackM State θ η (Except (CallError Value) CoreBuffer) := do
  let contracts := (← get).contracts
  let outcome ← relay (CallbackM.dispatcher machine contract) contracts contract.name schema error
    handle method args.bytes
  CallbackM.onHost do
    let result ← HostM.callFallible (schema.decode error) (runReturningBytes outcome)
    return result.map CoreBuffer.mk

end CoreBridge.Demo
