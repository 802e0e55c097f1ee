import CoreBridge.Proofs.Async.Progress
import CoreBridge.Proofs.Task.Private

/-!
# What a call leaves alone

A call has to itself its task, the wakers of the polls of the future, and the poll that
it waits for: its `Footprint`. What it does is done with these and with what is new, so
nothing changes for a call that has a footprint apart from it (`Session.Moves`). This
is said once for an operation on the tasks, whose continuations go to their channels
(`Session.Performs.moves`), and once for what the call does with its own channel.
-/
namespace CoreBridge.Host

open CoreBridge.Core CoreBridge.Task

/-- What a call has to itself. -/
structure Footprint where
  task : Option Nat := none
  /-- The wakers of the polls of the task's future, in order. -/
  wakers : Array Nat := #[]
  /-- The poll that the call waits for. -/
  poll : Option Nat := none

/-- A continuation has been brought for the poll of a task, or the task still owes it by
the waker of the last of its polls. -/
structure Session.Awaits (s : Session State) (task id : Nat) (own : Array Nat)
    (brought : Option Int) : Prop where
  holds : s.wakes.Holds id brought
  owed : brought = none → ∃ w, own.back? = some w ∧ s.core.tasks.Owed task w ⟨id, .armed⟩

namespace Footprint

/-- Whether all of the footprint has been issued in the session. -/
structure Within (f : Footprint) (s : Session State) : Prop where
  task : ∀ task ∈ f.task, task < s.core.tasks.nextHandle
  wakers : ∀ w ∈ f.wakers, w < s.core.tasks.wakers.size
  poll : ∀ id ∈ f.poll, id < s.wakes.nextId

structure Apart (f g : Footprint) : Prop where
  task : ∀ task ∈ f.task, task ∉ g.task
  wakers : ∀ w ∈ f.wakers, w ∉ g.wakers
  poll : ∀ id ∈ f.poll, id ∉ g.poll

/-- Whether `g` is of the footprint `f` but for what was still to be issued in the session. -/
structure Grows (f : Footprint) (s : Session State) (g : Footprint) : Prop where
  task : ∀ task ∈ g.task, task ∈ f.task ∨ s.core.tasks.nextHandle ≤ task
  wakers : ∀ w ∈ g.wakers, w ∈ f.wakers ∨ s.core.tasks.wakers.size ≤ w
  poll : ∀ id ∈ g.poll, id ∈ f.poll ∨ s.wakes.nextId ≤ id

variable {f g k : Footprint} {s : Session State}

theorem within_empty (s : Session State) : Within {} s where
  task _ hmem := by cases hmem
  wakers w hmem := by simp at hmem
  poll _ hmem := by cases hmem

theorem apart_empty (f : Footprint) : Apart {} f where
  task _ hmem := by cases hmem
  wakers w hmem := by simp at hmem
  poll _ hmem := by cases hmem

theorem Apart.symm (h : f.Apart g) : g.Apart f where
  task task hg hf := h.task task hf hg
  wakers w hg hf := h.wakers w hf hg
  poll id hg hf := h.poll id hf hg

theorem Apart.grows (h : f.Apart k) (hgrows : f.Grows s g) (hk : k.Within s) : g.Apart k where
  task task hg hmem := by
    obtain hf | hnew := hgrows.task task hg
    · exact h.task task hf hmem
    · exact absurd (hk.task task hmem) (Nat.not_lt.2 hnew)
  wakers w hg hmem := by
    obtain hf | hnew := hgrows.wakers w hg
    · exact h.wakers w hf hmem
    · exact absurd (hk.wakers w hmem) (Nat.not_lt.2 hnew)
  poll id hg hmem := by
    obtain hf | hnew := hgrows.poll id hg
    · exact h.poll id hf hmem
    · exact absurd (hk.poll id hmem) (Nat.not_lt.2 hnew)

theorem Grows.refl (f : Footprint) (s : Session State) : f.Grows s f :=
  ⟨fun _ => .inl, fun _ => .inl, fun _ => .inl⟩

end Footprint

namespace Session

/-- Nothing changes between two sessions for a call with this footprint. -/
structure Spares (s s' : Session State) (f : Footprint) : Prop where
  task : ∀ task ∈ f.task, s'.core.tasks.tasks.get? task = s.core.tasks.tasks.get? task
  awaits : ∀ task ∈ f.task, ∀ id ∈ f.poll, ∀ brought,
    s.Awaits task id f.wakers brought → s'.Awaits task id f.wakers brought

/-- What a call with the footprint `f` may make of a session, and have as its footprint then. -/
structure Moves (s : Session State) (f : Footprint) (s' : Session State) (g : Footprint) :
    Prop where
  orderly : s'.Orderly
  handles : s.core.tasks.nextHandle ≤ s'.core.tasks.nextHandle
  sizes : s.core.tasks.wakers.size ≤ s'.core.tasks.wakers.size
  ids : s.wakes.nextId ≤ s'.wakes.nextId
  within : g.Within s'
  grows : f.Grows s g
  spares : ∀ k : Footprint, k.Within s → f.Apart k → s.Spares s' k

variable {s s' s'' : Session State} {f g k : Footprint} {op : Task.Operation}

theorem Moves.mono (h : s.Moves f s' g) (hk : k.Within s) : k.Within s' where
  task task hmem := Nat.lt_of_lt_of_le (hk.task task hmem) h.handles
  wakers w hmem := Nat.lt_of_lt_of_le (hk.wakers w hmem) h.sizes
  poll id hmem := Nat.lt_of_lt_of_le (hk.poll id hmem) h.ids

theorem Moves.refl (hs : s.Orderly) (hf : f.Within s) : s.Moves f s f where
  orderly := hs
  handles := le_rfl
  sizes := le_rfl
  ids := le_rfl
  within := hf
  grows := .refl f s
  spares _ _ _ := ⟨fun _ _ => rfl, fun _ _ _ _ _ hawaits => hawaits⟩

theorem Moves.trans (h : s.Moves f s' g) (h' : s'.Moves g s'' k) : s.Moves f s'' k where
  orderly := h'.orderly
  handles := h.handles.trans h'.handles
  sizes := h.sizes.trans h'.sizes
  ids := h.ids.trans h'.ids
  within := h'.within
  grows :=
    { task := fun task hmem => (h'.grows.task task hmem).elim (h.grows.task task) fun hnew =>
        .inr (h.handles.trans hnew)
      wakers := fun w hmem => (h'.grows.wakers w hmem).elim (h.grows.wakers w) fun hnew =>
        .inr (h.sizes.trans hnew)
      poll := fun id hmem => (h'.grows.poll id hmem).elim (h.grows.poll id) fun hnew =>
        .inr (h.ids.trans hnew) }
  spares k hk hapart := by
    have hfirst := h.spares k hk hapart
    have hsecond := h'.spares k (h.mono hk) (hapart.grows h.grows hk)
    exact ⟨fun task hmem => (hsecond.task task hmem).trans (hfirst.task task hmem),
      fun task htask id hid brought hawaits => hsecond.awaits task htask id hid brought
        (hfirst.awaits task htask id hid brought hawaits)⟩

/-! ## Operations on the tasks -/

/-- An operation leaves a poll as it is awaited that has been brought its continuation,
or whose task it does not concern and whose waker it does not wake. -/
theorem Performs.awaits {task id : Nat} {own : Array Nat} {brought : Option Int}
    (h : s.Performs s' op) (hs : s.Orderly) (hid : id < s.wakes.nextId)
    (hpolls : ∀ handle, op ≠ .poll handle id)
    (hsilent : brought = none → op.target? ≠ some task ∧
      ∀ w, own.back? = some w → w ∉ s.core.tasks.wakesOf op)
    (hawaits : s.Awaits task id own brought) : s'.Awaits task id own brought := by
  have hholds := h.channels id hid brought hawaits.holds
  cases brought with
  | some result => exact ⟨hholds, fun heq => by cases heq⟩
  | none =>
    obtain ⟨w, hback, howed⟩ := hawaits.owed rfl
    obtain ⟨htarget, hwakes⟩ := hsilent rfl
    have hreleases : ¬ s.core.tasks.Releases task w op := by
      rintro ⟨_, rfl | hwoken⟩
      · exact htarget rfl
      · exact hwakes w hback hwoken
    obtain ⟨howed', hfired⟩ :=
      howed.kept hs.sound hpolls (Task.Operation.not_supersedes htarget) hreleases
    rw [hfired] at hholds
    exact ⟨hholds, fun _ => ⟨w, hback, h.tasks ▸ howed'⟩⟩

theorem Performs.within (h : s.Performs s' op) (hf : f.Within s) : f.Within s' where
  task task hmem := by
    refine Nat.lt_of_lt_of_le (hf.task task hmem) ?_
    rw [h.tasks, Store.nextHandle_perform]
    cases op with
    | spawn future => exact Nat.le_succ _
    | _ => exact le_rfl
  wakers w hmem := by
    rw [h.tasks]
    exact Nat.lt_of_lt_of_le (hf.wakers w hmem) (Store.size_le_perform s.core.tasks op)
  poll id hmem := Nat.lt_of_lt_of_le (hf.poll id hmem) h.ids

/-- An operation on the task of a call that wakes its own wakers at most. -/
theorem Performs.moves (h : s.Performs s' op) (hs : s.Orderly)
    (htarget : ∀ task, op.target? = some task → task ∈ f.task)
    (hwakes : ∀ w ∈ s.core.tasks.wakesOf op, w ∈ f.wakers ∨ s.core.tasks.wakers.size ≤ w)
    (hpolls : ∀ handle id, op = .poll handle id → s.wakes.nextId ≤ id ∧ id < s'.wakes.nextId)
    (hwithin : g.Within s') (hgrows : f.Grows s g) : s.Moves f s' g where
  orderly := hs.follows h.toFollows fun handle id heq => (hpolls handle id heq).2
  handles := by
    rw [h.tasks, Store.nextHandle_perform]
    cases op with
    | spawn future => exact Nat.le_succ _
    | _ => exact le_rfl
  sizes := h.tasks ▸ Store.size_le_perform s.core.tasks op
  ids := h.ids
  within := hwithin
  grows := hgrows
  spares k hk hapart := by
    have hne (task : Nat) (hmem : task ∈ k.task) : op.target? ≠ some task :=
      fun heq => hapart.task task (htarget task heq) hmem
    refine ⟨fun task hmem => ?_, fun task hmem id hid brought hawaits => ?_⟩
    · rw [h.tasks, Store.get?_perform_of_ne (hne task hmem) (hk.task task hmem)]
    · refine h.awaits hs (hk.poll id hid) ?_ (fun _ => ⟨hne task hmem, ?_⟩) hawaits
      · intro handle heq
        exact absurd (hk.poll id hid) (Nat.not_lt.2 (hpolls handle id heq).1)
      · intro w hback hwoken
        have hw := Array.mem_of_back? hback
        obtain hmine | hnew := hwakes w hwoken
        · exact hapart.wakers w hmine hw
        · exact absurd (hk.wakers w hw) (Nat.not_lt.2 hnew)

/-- What a call has done with its task but for polls. -/
theorem Performs.moves_own {task : Nat} {future : Future TaskResult} {own : Array Nat}
    {poll : Option Nat} (h : s.Performs s' op) (hs : s.Orderly)
    (hf : Footprint.Within ⟨some task, own, poll⟩ s) (hop : op.target? = some task)
    (hpolls : ∀ handle id, op ≠ .poll handle id) (hown : s.core.tasks.Owns task future own)
    (hprivate : future.IsPrivate) : s.Moves ⟨some task, own, poll⟩ s' ⟨some task, own, poll⟩ := by
  refine h.moves hs (fun t ht => hop.symm.trans ht) (fun w hw => ?_) (fun handle id heq => ?_)
    (h.within hf) (.refl _ _)
  · exact (hown.mem_of_wakesOf hprivate hop hw).imp_right Eq.ge
  · exact absurd heq (hpolls handle id)

/-! ## The channel of a call -/

/-- What a call does with the channel of the poll that it waits for. -/
theorem moves_of_channels (hs : s.Orderly) (hf : f.Within s)
    (htasks : s'.core.tasks = s.core.tasks) (hids : s'.wakes.nextId = s.wakes.nextId)
    (hchannels : ∀ id, id ∉ f.poll → s'.wakes.channels.get? id = s.wakes.channels.get? id)
    (hg : g.task = f.task ∧ g.wakers = f.wakers ∧ ∀ id ∈ g.poll, id ∈ f.poll) :
    s.Moves f s' g where
  orderly := ⟨htasks ▸ hs.sound, htasks ▸ hids ▸ hs.below⟩
  handles := htasks ▸ le_rfl
  sizes := htasks ▸ le_rfl
  ids := hids ▸ le_rfl
  within :=
    { task := fun task hmem => htasks ▸ hf.task task (hg.1 ▸ hmem)
      wakers := fun w hmem => htasks ▸ hf.wakers w (hg.2.1 ▸ hmem)
      poll := fun id hmem => hids ▸ hf.poll id (hg.2.2 id hmem) }
  grows := ⟨fun _ hmem => .inl (hg.1 ▸ hmem), fun _ hmem => .inl (hg.2.1 ▸ hmem),
    fun id hmem => .inl (hg.2.2 id hmem)⟩
  spares k hk hapart :=
    { task := fun task _ => by rw [htasks]
      awaits := fun task _ id hid brought hawaits =>
        ⟨hawaits.holds.congr (hchannels id fun hmem => hapart.poll id hmem hid),
          fun heq => htasks ▸ hawaits.owed heq⟩ }

end Session

/-! ## Entry points -/

variable {s : Session State}

theorem collect_performs {ε : Type} (decode : Bytes → Except Wire.DecodeError ε)
    (flavour : Flavour) (task : Nat) (s : Session State) :
    let reply := (s.core.complete true flavour task).1
    ∃ s', (collect machine decode flavour task).run s =
        ((classify decode reply.status).map fun () => reply.value, s') ∧
      s.Performs s' (.complete flavour task) := by
  intro reply
  obtain ⟨s', hcall, hcore, hwakes⟩ := HostM.callFallible_run decode
    (machine.complete flavour task) { s with trace := s.trace ++ [.complete flavour task] }
  obtain ⟨_, hidle⟩ := WakeRegistry.shown_of_isIdle (isIdle_complete flavour task s.core) s.wakes
  refine ⟨s', hcall, Session.performs_of_deliverAll ?_ (hwakes.trans hidle)⟩
  rw [hcore]
  exact complete_tasks s.core flavour task

end CoreBridge.Host
