import CoreBridge.Boundary.Code

/-!
# Wakers

Each poll of a future gets a waker of its own, which stands for one invocation
of the host's continuation. A waker that is woken while its poll still runs
remembers it; once the poll answered pending it is armed, and the next wake
spends it. A spent waker does nothing.
-/
namespace CoreBridge.Task

inductive WakerState where
  | polling
  | wokenDuringPoll
  | armed
  | spent
deriving DecidableEq, Repr

/-- The waker of one poll, with the data that the continuation is invoked with. -/
structure Waker where
  data : Nat
  state : WakerState := .polling
deriving DecidableEq, Repr

namespace Waker

/-- The state after a wake. -/
def woken (w : Waker) : Waker :=
  match w.state with
  | .polling => { w with state := .wokenDuringPoll }
  | .armed => { w with state := .spent }
  | .wokenDuringPoll | .spent => w

/-- Whether a wake invokes the continuation. -/
def isArmed (w : Waker) : Bool := w.state = .armed

/-- The state once the poll answered pending. -/
def arm (w : Waker) : Waker :=
  match w.state with
  | .polling => { w with state := .armed }
  | .wokenDuringPoll => { w with state := .spent }
  | .armed | .spent => w

/-- Whether the continuation is due as soon as the poll answered pending. -/
def isDue (w : Waker) : Bool := w.state = .wokenDuringPoll

/-- The state once the continuation is no longer owed. -/
def disarm (w : Waker) : Waker := { w with state := .spent }

@[simp] theorem woken_data (w : Waker) : w.woken.data = w.data := by
  unfold woken; split <;> rfl

@[simp] theorem arm_data (w : Waker) : w.arm.data = w.data := by
  unfold arm; split <;> rfl

@[simp] theorem disarm_data (w : Waker) : w.disarm.data = w.data := rfl

@[simp] theorem woken_woken (w : Waker) : w.woken.woken = w.woken := by
  obtain ⟨data, state⟩ := w
  cases state <;> rfl

@[simp] theorem isArmed_woken (w : Waker) : w.woken.isArmed = false := by
  obtain ⟨data, state⟩ := w
  cases state <;> rfl

theorem woken_spent {w : Waker} (h : w.state = .spent) : w.woken.state = .spent := by
  simp [woken, h]

theorem arm_spent {w : Waker} (h : w.state = .spent) : w.arm.state = .spent := by
  simp [arm, h]

end Waker
end CoreBridge.Task
