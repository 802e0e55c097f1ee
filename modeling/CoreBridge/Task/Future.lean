import CoreBridge.Bytes
import CoreBridge.Panic
import CoreBridge.Wire.Writer

/-!
# Futures

A future is given by what it does: how it behaves in each of its polls, counted
from zero, and which wakers it wakes when it is dropped. During a poll it may
wake any waker, one of its own or one that another future handed on.
-/
namespace CoreBridge.Task

/-- What a successful task produced, by the shape it is collected in. -/
inductive TaskValue where
  | void
  | word (n : Nat)
  | buffer (bytes : Bytes)
deriving DecidableEq, Repr

/-- How a value is shown in the message about a wrong shape. -/
def TaskValue.describe : TaskValue → String
  | void => "Void"
  | word n => s!"U64({n})"
  | buffer bytes =>
    "Buffer([" ++ ", ".intercalate (bytes.map fun byte => toString byte.toNat) ++ "])"

/-- How a task can fail. -/
inductive TaskError where
  /-- The wire form of a domain error. -/
  | domain (bytes : Bytes)
  | panic (message : String)
deriving DecidableEq, Repr

abbrev TaskResult := Except TaskError TaskValue

/-- Names a waker: that of a future's own poll, or one by its number in the store. -/
inductive WakerRef where
  | own (poll : Nat)
  | numbered (waker : Nat)
deriving DecidableEq, Repr

/-- The number of the waker named, where `own` are the wakers of the future that names it. -/
def WakerRef.number? (own : Array Nat) : WakerRef → Option Nat
  | .own poll => own[poll]?
  | .numbered waker => some waker

/-- How one poll ends. -/
inductive Ending (α : Type) where
  | pending
  | ready (result : α)
  | panicked (panic : Panic)
deriving Repr

def Ending.map {α β : Type} (f : α → β) : Ending α → Ending β
  | pending => pending
  | ready result => ready (f result)
  | panicked panic => panicked panic

/-- What a future does in one poll: the wakers it wakes in order, whether it
hands the poll's waker on, and how the poll ends. -/
structure Turn (α : Type) where
  wakes : List WakerRef := []
  handsOn : Bool := false
  ending : Ending α

/-- A future: its behaviour in each poll, and the wakers it wakes when dropped
after a number of polls. -/
structure Future (α : Type) where
  onPoll : Nat → Turn α
  onDrop : Nat → List WakerRef := fun _ => []

namespace Future

/-- The future that ends with `f` of what `future` ends with. -/
def map {α β : Type} (f : α → β) (future : Future α) : Future β where
  onPoll n := { future.onPoll n with ending := (future.onPoll n).ending.map f }
  onDrop := future.onDrop

/-- Never ends and wakes nothing. -/
def stalled {α : Type} : Future α := { onPoll := fun _ => { ending := .pending } }

/-- Ends on its first poll. -/
def ready {α : Type} (result : α) : Future α := { onPoll := fun _ => { ending := .ready result } }

/-- Pending for `count` polls, waking itself during each, then ready. -/
def countdown {α : Type} (count : Nat) (result : α) : Future α where
  onPoll n :=
    if n < count then { wakes := [.own n], ending := .pending } else { ending := .ready result }

end Future

/-- The result of a task whose value and error are written to the wire. -/
def lowerResult : Except Wire.Value Wire.Value → TaskResult
  | .ok value =>
    match Wire.encode value with
    | .ok bytes => .ok (.buffer bytes)
    | .error error => .error (.panic s!"failed to encode task result: {error.message}")
  | .error value =>
    match Wire.encode value with
    | .ok bytes => .error (.domain bytes)
    | .error error => .error (.panic s!"failed to encode task error: {error.message}")

/-- The future of a task whose value and error are written to the wire when it ends. -/
def Future.lowered (future : Future (Except Wire.Value Wire.Value)) : Future TaskResult :=
  future.map lowerResult

end CoreBridge.Task
