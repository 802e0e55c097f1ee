import CoreBridge.Core.Machine
import CoreBridge.Host.Status
import CoreBridge.Host.Wake

/-!
# A host and its core

A session is a core as the host sees it together with what the host itself
keeps: the wake registry that the continuation reaches, and the trace. Every
call into the core hands over a zeroed status and classifies what is written to
it; the payload is given back to the core however the status is classified.

Giving a buffer back is a call too, and its own status may carry a payload.
`freeReplies` lists what such calls report, the next one first; once the list is
used up they succeed, so a chain of failures always ends.
-/
namespace CoreBridge.Host

/-- A host with its core. -/
structure Session (σ : Type) where
  core : σ
  freeReplies : List CallStatus := []
  wakes : WakeRegistry := {}
  trace : Trace := []

/-- A step of a host. -/
abbrev HostM (σ : Type) := StateM (Session σ)

/-- What giving a buffer back shows, and the replies left for later calls. A
null buffer is not given back. -/
def releaseWith : (replies : List CallStatus) → Buffer → Trace × List CallStatus
  | replies, .null => ([], replies)
  | [], buffer => ([.free buffer], [])
  | status :: replies, buffer =>
    let (inner, replies) := releaseWith replies status.payload
    let failure := match classifyInfallible status with
      | .ok () => []
      | .error fault => [.log .error s!"Failed to free core buffer: {fault.message}"]
    (.free buffer :: (inner ++ failure), replies)

namespace HostM

variable {σ α ε : Type}

/-- Adds to the trace. -/
def observe (trace : Trace) : HostM σ Unit := modify fun s => { s with trace := s.trace ++ trace }

def log (level : Level) (text : String) : HostM σ Unit := observe [.log level text]

/-- Takes what the trace holds so far, leaving it empty. -/
def takeTrace : HostM σ Trace := modifyGet fun s => (s.trace, { s with trace := [] })

/-- Runs a step of the wake registry. -/
def onWakes (f : WakeRegistry → α × WakeRegistry) : HostM σ α := do
  let s ← get
  let (a, wakes) := f s.wakes
  set { s with wakes }
  return a

/-- The continuation that the host installs in every core. -/
def continuation (id : Nat) (result : Int) : HostM σ Unit := do
  let trace ← onWakes fun r => let (r, trace) := r.deliver id result; (trace, r)
  observe trace

/-- Takes over what happened in the core, running the continuation where it was invoked. -/
def absorb : Trace → HostM σ Unit
  | [] => return ()
  | o :: trace => do
    observe [o]
    if let .fired id result := o then continuation id result
    absorb trace

/-- Runs an entry point with a zeroed status. -/
def enter (transition : σ → Reply α × σ) : HostM σ (α × CallStatus) := do
  let s ← get
  let (reply, core) := transition s.core
  set { s with core }
  absorb reply.trace
  return (reply.value, reply.status)

/-- Gives a buffer back to the core, unless it is null. -/
def release (buffer : Buffer) : HostM σ Unit := do
  let s ← get
  let (trace, freeReplies) := releaseWith s.freeReplies buffer
  set { s with freeReplies, trace := s.trace ++ trace }

/-- Calls an entry point that declares no error; `shown` is what its return shows. -/
def call (transition : σ → Reply α × σ) (shown : α → Trace := fun _ => []) :
    HostM σ (Except Fault α) := do
  let (value, status) ← enter transition
  observe (shown value)
  release status.payload
  return (classifyInfallible status).map fun () => value

/-- Calls an entry point whose error is read with `decode`. -/
def callFallible (decode : Bytes → Except Wire.DecodeError ε) (transition : σ → Reply α × σ) :
    HostM σ (Except (CallError ε) α) := do
  let (value, status) ← enter transition
  release status.payload
  return (classify decode status).map fun () => value

/-- Classifies a status that was written elsewhere, taking over its payload. -/
def checkStatus (decode : Bytes → Except Wire.DecodeError ε) (status : CallStatus) :
    HostM σ (Except (CallError ε) Unit) := do
  release status.payload
  return classify decode status

end HostM
end CoreBridge.Host
