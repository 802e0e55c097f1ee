import CoreBridge.Host.Async

/-!
# Executors

An executor holds futures of the host by number. It polls them when told to,
and the trace shows how often each one was woken in between.
-/
namespace CoreBridge.Host

/-- A future of the host: a whole call, or a task that is only driven. -/
inductive HostFuture (σ ε : Type) where
  | call (operation : Operation σ ε) (state : Call ε)
  | drive (task : Nat) (state : Drive)

/-- What a future of the host ends with. -/
inductive HostResult (ε : Type) where
  | collected (result : Except (CallError ε) Core.Collection)
  | driven (result : Except Fault PollReport)

abbrev Executor (σ ε : Type) := Array (HostFuture σ ε)

namespace HostFuture

variable {σ ε : Type}

/-- Polls a future once under its number. -/
def poll (core : Core.EntryPoints σ) (number : Nat) :
    HostFuture σ ε → HostM σ (HostFuture σ ε × Option (HostResult ε))
  | .call operation state => do
    let state ← state.poll core operation number pollBudget
    return (.call operation state, match state with
      | .ended result => some (.collected result)
      | _ => none)
  | .drive task state => do
    let state ← Drive.run core number task pollBudget state
    return (.drive task state, match state with
      | .finished report => some (.driven (.ok report))
      | .failed fault => some (.driven (.error fault))
      | _ => none)

/-- Drops a future. -/
def drop (core : Core.EntryPoints σ) : HostFuture σ ε → HostM σ (HostFuture σ ε)
  | .call operation state => return .call operation (← state.drop core)
  | .drive task state => do
    state.abandon
    return .drive task state

end HostFuture

namespace Executor

variable {σ ε : Type}

/-- Polls the future with this number, if there is one. -/
def poll (core : Core.EntryPoints σ) (number : Nat) (executor : Executor σ ε) :
    HostM σ (Executor σ ε × Option (HostResult ε)) :=
  match executor[number]? with
  | none => return (executor, none)
  | some future => do
    let (future, result) ← future.poll core number
    return (executor.setIfInBounds number future, result)

/-- Drops the future with this number, if there is one. -/
def drop (core : Core.EntryPoints σ) (number : Nat) (executor : Executor σ ε) :
    HostM σ (Executor σ ε) :=
  match executor[number]? with
  | none => return executor
  | some future => do
    return executor.setIfInBounds number (← future.drop core)

/-- How often each future is woken in a trace. -/
def wakeUps (executor : Executor σ ε) (trace : Trace) : List Nat :=
  (List.range executor.size).map fun number => trace.count (.woke number)

end Executor
end CoreBridge.Host
