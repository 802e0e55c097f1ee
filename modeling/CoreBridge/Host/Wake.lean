import CoreBridge.Boundary.Trace
import CoreBridge.Table

/-!
# The wake registry

Every poll of a task gets a fresh id and a channel that carries one result. The
continuation finds the channel by the id. A waiter that goes away while the
core still owes it a continuation leaves its id behind as abandoned, so that
the continuation, when it comes, is not taken for an unknown one.

Ids count the polls that were made. The count is a natural number here and has
64 bits at the boundary: the two agree below 2^64 polls, a bound that no run
comes near, and until then no id comes again.
-/
namespace CoreBridge.Host

/-- The channel of one poll. -/
inductive Channel where
  /-- Nothing has arrived; `suspended` says whether the host future `call` waits to be woken. -/
  | awaiting (call : Nat) (suspended : Bool)
  | delivered (result : Int)
deriving DecidableEq, Repr

structure WakeRegistry where
  nextId : Nat := 1
  channels : Table Nat Channel := {}
  /-- The polls whose waiter went away before the continuation arrived. -/
  abandoned : List Nat := []
deriving Repr

namespace WakeRegistry

/-- Whether a continuation for this poll would find a waiter. -/
def isPending (r : WakeRegistry) (id : Nat) : Bool :=
  match r.channels.get? id with
  | some (.awaiting ..) => true
  | _ => false

/-- Opens a channel under a fresh id for the host future `call`. -/
def register (r : WakeRegistry) (call : Nat) : Nat × WakeRegistry :=
  (r.nextId,
    { r with
      nextId := r.nextId + 1
      channels := r.channels.set r.nextId (.awaiting call false) })

/-- Notes that the host future now waits to be woken. -/
def suspend (r : WakeRegistry) (id : Nat) : WakeRegistry :=
  match r.channels.get? id with
  | some (.awaiting call _) => { r with channels := r.channels.set id (.awaiting call true) }
  | _ => r

/-- The result that has arrived for a poll, if one has. -/
def received? (r : WakeRegistry) (id : Nat) : Option Int :=
  match r.channels.get? id with
  | some (.delivered result) => some result
  | _ => none

/-- Closes a channel. If nothing arrived and the poll is `armed`, the core still
owes a continuation and the id is abandoned. -/
def unregister (r : WakeRegistry) (id : Nat) (armed : Bool) : WakeRegistry :=
  { r with
    channels := r.channels.erase id
    abandoned := if r.isPending id && armed then r.abandoned ++ [id] else r.abandoned }

/-- What the continuation does: hands the result to the waiter, or clears the
mark of an abandoned poll, or warns. -/
def deliver (r : WakeRegistry) (id : Nat) (result : Int) : WakeRegistry × Trace :=
  match r.channels.get? id with
  | some (.awaiting call suspended) =>
    ({ r with channels := r.channels.set id (.delivered result) },
      if suspended then [.woke call] else [])
  | _ =>
    if id ∈ r.abandoned then
      ({ r with abandoned := r.abandoned.filter (· ≠ id) },
        [.log .debug s!"Continuation for abandoned poll {id} (result {result})"])
    else (r, [.log .warn s!"Continuation for unknown poll {id}"])

end WakeRegistry
end CoreBridge.Host
