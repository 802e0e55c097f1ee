import CoreBridge.Demo.Listener
import Mathlib.Tactic

/-!
# Dispatches by the state of their handle

Releasing a handle takes it out of the table and nothing else. A method runs on
the object that its handle stands for; on a handle that the table does not know
nothing runs, and the core gets an unexpected failure.
-/
namespace CoreBridge

namespace Core.Proxy

variable {m : Type → Type} [Monad m] (d : Dispatcher m) (p : Proxy) {method : Nat} {args : Bytes}

/-- An invocation that is refused dispatches nothing. -/
theorem invoke_refused {refusal : ProxyError} (h : refusal? method args.length = some refusal) :
    p.invoke d method args = pure (.error refusal) := by
  rw [invoke, h]

theorem invoke_dispatched (hmethod : method ≠ releaseMethod) (hargs : args.length < 0x80000000) :
    p.invoke d method args = do
      let (code, out) ← d.dispatch p.dispatch p.handle method (some args) args.length
      reclaim d out
      return outcome code out.bytes := by
  rw [invoke, refusal?, if_neg hmethod, if_neg (Nat.not_le_of_gt hargs)]

end Core.Proxy

namespace Host.CallbackM

variable {σ θ η : Type} (core : Core.EntryPoints σ) (contract : Contract θ η)

/-- The release of a handle always succeeds. -/
theorem dispatch_release (e : Exchange σ θ η) (handle : Nat) (args : Option Bytes) (length : Int)
    (hasOut : Bool) : ∃ session,
    (dispatch core contract handle releaseMethod args length hasOut).run e =
      ((ResultCode.success.raw, none), { e with
        session
        slot := { e.slot with table := (e.slot.table.remove handle).2 } }) := by
  unfold dispatch
  rw [if_pos rfl]
  cases hremoved : (e.slot.table.remove handle).1 with
  | none =>
    refine ⟨{ e.session with trace := e.session.trace ++ [.log .debug
      s!"Callback handle {handle} of '{contract.name}' already released"] }, ?_⟩
    simp [hremoved]
    rfl
  | some i =>
    refine ⟨e.session, ?_⟩
    simp [hremoved]
    rfl

theorem drop_run (e : Exchange σ θ η) (p : Core.Proxy) : ∃ session,
    (p.drop (dispatcher core contract)).run e = ((), { e with
      session
      slot := { e.slot with table := (e.slot.table.remove p.handle).2 } }) := by
  obtain ⟨session, hdispatch⟩ := dispatch_release core contract e p.handle none 0 true
  refine ⟨session, ?_⟩
  unfold Core.Proxy.drop dispatcher
  simp only [StateT.run_bind, hdispatch]
  rfl

/-- A dispatch on a handle that is not in the table. -/
theorem invoke_unknown {e : Exchange σ θ η} {handle : Nat}
    (hget : e.slot.table.get handle = .error (.unknownHandle handle)) (method : Nat)
    (args : Option Bytes) (length : Int) :
    (invoke contract handle method args length).run e =
      (.error (.failed (.protocol (.unknownHandle handle))), e) := by
  unfold invoke
  simp [hget]
  rfl

theorem invoke_known {e : Exchange σ θ η} {handle : Nat} {i : Instance θ}
    (hget : e.slot.table.get handle = .ok i) (method : Nat) (args : Bytes) :
    (invoke contract handle method (some args) args.length).run e =
      (runMethod contract i method args).run e := by
  have hlength : ¬ (args.length : Int) < 0 := by omega
  unfold invoke
  simp [hget, arguments, hlength]

/-- A dispatch on a handle that is not in the table answers with the code of an
unexpected failure. -/
theorem dispatch_unknown {e : Exchange σ θ η} {handle : Nat}
    (hget : e.slot.table.get handle = .error (.unknownHandle handle)) {method : Nat}
    (hmethod : method ≠ releaseMethod) (args : Option Bytes) (length : Int) (hasOut : Bool) :
    ((dispatch core contract handle method args length hasOut).run e).1.1 =
      ResultCode.unexpected.raw := by
  unfold dispatch
  rw [if_neg hmethod]
  simp only [StateT.run_bind, invoke_unknown contract hget]
  dsimp only [report, Bind.bind]
  generalize (writeOut core contract.name hasOut _).run _ = answer
  obtain ⟨outcome, after⟩ := answer
  cases outcome with
  | ok out => rfl
  | error fault => rfl

theorem proxy_unknown {e : Exchange σ θ η} {p : Core.Proxy}
    (hget : e.slot.table.get p.handle = .error (.unknownHandle p.handle)) {method : Nat}
    (hmethod : method ≠ releaseMethod) {args : Bytes} (hargs : args.length < 0x80000000) :
    ∃ message, ((p.invoke (dispatcher core contract) method args).run e).1 =
      .error (.unexpected message) := by
  have hcode := dispatch_unknown core contract hget hmethod (some args) args.length true
  rw [Core.Proxy.invoke_dispatched _ _ hmethod hargs, dispatcher]
  simp only [StateT.run_bind]
  generalize (dispatch core contract p.handle method (some args) args.length true).run e =
    answer at hcode ⊢
  obtain ⟨⟨code, out⟩, after⟩ := answer
  obtain rfl : code = _ := hcode
  exact ⟨_, rfl⟩

end Host.CallbackM
end CoreBridge
