import CoreBridge.Proofs.Async.Tidy

/-!
# Abandoned polls

A host drives tasks, polls and drops the futures that do so, drives a task again, and
cancels and frees tasks, all in any order. A poll whose future is dropped while it
waits is marked as abandoned until its continuation comes. That may come as long as the
task is neither polled again nor freed. Once either has happened it never comes, and the
mark stays for good (`Session.Lost`).
-/
namespace CoreBridge.Host

open CoreBridge.Core CoreBridge.Task

/-! ## What is lost -/

namespace Session

variable {s s' s'' : Session State} {op : Task.Operation} {id : Nat}

/-- The poll is marked, and its continuation will not come. -/
def Lost (s : Session State) (id : Nat) : Prop :=
  s.Stands id .lapsed ∧ s.wakes.view id = (none, true)

theorem Lost.undergoes (h : s.Lost id) (hu : s.Undergoes s' op) : s'.Lost id := by
  obtain ⟨hstands, hview⟩ := h
  have hop (handle : Nat) : op ≠ .poll handle id := by
    intro heq
    have hissued : ¬ s.wakes.nextId ≤ id := fun hle => by cases hstands.issued.1 hle
    exact hissued (hu.fresh handle id heq).ge
  have hsilent : s.core.tasks.Silent id := hstands.core
  refine ⟨hstands.undergoes_of_silent (fun task heq => by cases heq) hu hop, ?_⟩
  rw [hu.view id hop, (hsilent.perform hop).2, hview]
  rfl

theorem Lost.suspend (h : s.Lost id) (i : Nat) : Lost { s with wakes := s.wakes.suspend i } id := by
  refine ⟨h.1.suspend i, ?_⟩
  obtain hsame | ⟨call, suspended, hbefore, _⟩ := s.wakes.view_suspend i id
  · exact hsame.trans h.2
  · cases (Prod.mk.inj (h.2.symm.trans hbefore)).1

theorem Lost.close (h : s.Lost id) (i : Nat) : (Drive.closed i true s).Lost id := by
  have hview : (s.wakes.unregister i true).view id = (none, true) := by
    rw [WakeRegistry.view_unregister, h.2, Bool.or_true]
    split_ifs <;> rfl
  exact ⟨h.1.rewake rfl (.inr hview), hview⟩

/-- The session `s'` is tidy, and what was lost in `s` still is. -/
structure Onward (s s' : Session State) : Prop where
  tidy : s'.Tidy
  lost : ∀ id, s.Lost id → s'.Lost id

theorem Tidy.onward (hs : s.Tidy) : s.Onward s := ⟨hs, fun _ => id⟩

theorem Onward.trans (h : s.Onward s') (h' : s'.Onward s'') : s.Onward s'' :=
  ⟨h'.tidy, fun id hlost => h'.lost id (h.lost id hlost)⟩

theorem Tidy.onward_undergoes (hs : s.Tidy) (hu : s.Undergoes s' op)
    (hown : ∀ handle id, op = .poll handle id → ∃ stage, s'.Stands id stage) : s.Onward s' :=
  ⟨hs.undergoes hu hown, fun _ hlost => hlost.undergoes hu⟩

theorem Tidy.onward_poll (hs : s.Tidy) (number task : Nat) (report : PollReport) :
    s.Onward ((Drive.poll machine number task report).run s).2 := by
  obtain ⟨report', s', hu, ⟨hrun, hclosed⟩ | ⟨hrun, _, hown⟩⟩ :=
    Drive.poll_undergoes hs number task report
  · rw [hrun]
    refine hs.onward_undergoes hu fun handle id heq => ?_
    obtain ⟨_, rfl⟩ := Task.Operation.poll.inj heq
    exact ⟨_, hclosed⟩
  · rw [hrun]
    refine hs.onward_undergoes hu fun handle id heq => ?_
    obtain ⟨_, rfl⟩ := Task.Operation.poll.inj heq
    obtain howed | ⟨result, hdelivered⟩ := hown
    · exact ⟨_, howed⟩
    · exact ⟨_, hdelivered⟩

theorem Tidy.onward_close (hs : s.Tidy) (i : Nat) : s.Onward (Drive.closed i true s) :=
  ⟨hs.close i, fun _ hlost => hlost.close i⟩

theorem Tidy.onward_receive (hs : s.Tidy) (i : Nat) (report : PollReport) :
    s.Onward ((Drive.receive i report).run s).2 := by
  rw [Drive.receive_eq]
  dsimp only
  split
  · exact ⟨hs.suspend i, fun _ hlost => hlost.suspend i⟩
  · exact hs.onward_close i

/-- Driving a task keeps a session tidy and finds nothing that was lost. -/
theorem Tidy.onward_run (hs : s.Tidy) (number task fuel : Nat) (d : Drive) :
    s.Onward ((Drive.run machine number task fuel d).run s).2 := by
  refine Drive.run_keeps (P := fun _ s' => s.Onward s') ?_ ?_ fuel hs.onward
  · exact fun report s' h => h.trans (h.tidy.onward_poll number task report)
  · exact fun i report s' h => h.trans (h.tidy.onward_receive i report)

end Session

/-! ## Driving tasks -/

/-- What may happen in a host that drives tasks. -/
inductive HostAction where
  /-- A future is made that drives a task. -/
  | drive (task : Nat)
  | poll (number : Nat)
  | drop (number : Nat)
  | cancel (task : Nat)
  | free (task : Nat)
  /-- Tasks are spawned or completed, or wakers woken. -/
  | others (op : Task.Operation) (h : op.Spares)

/-- A host with the futures that drive tasks. -/
structure Driver where
  session : Session State := { core := {} }
  futures : Executor State Empty := #[]

namespace Driver

/-- The host after an action. A dropped future stays in its place, and there may be
polled again. -/
def act (d : Driver) : HostAction → Driver
  | .drive task => { d with futures := d.futures.push (.drive task (.polling {})) }
  | .poll number =>
    let polled := (d.futures.poll machine number).run d.session
    { session := polled.2, futures := polled.1.1 }
  | .drop number =>
    let dropped := (d.futures.drop machine number).run d.session
    { session := dropped.2, futures := dropped.1 }
  | .cancel task => { d with session := ((cancelTask machine task).run d.session).2 }
  | .free task => { d with session := ((freeTask machine task).run d.session).2 }
  | .others op _ =>
    { d with
      session := ((HostM.enter fun core => core.onTasks (·.perform op)).run d.session).2 }

def run (d : Driver) (actions : List HostAction) : Driver := actions.foldl act d

/-- The session is tidy, and the futures only drive tasks. -/
structure Invariant (d : Driver) : Prop where
  tidy : d.session.Tidy
  drives : ∀ future ∈ d.futures, ∃ task drive, future = .drive task drive

variable {d : Driver}

theorem run_append (d : Driver) (first second : List HostAction) :
    d.run (first ++ second) = (d.run first).run second := List.foldl_append

/-- In the place of a future that drives a task there is such a future again. -/
theorem Invariant.drives_set (h : d.Invariant) (number task : Nat) (drive : Drive) :
    ∀ future ∈ d.futures.setIfInBounds number (.drive task drive),
      ∃ task drive, future = .drive task drive := by
  intro future hfuture
  obtain hfuture | rfl := Array.mem_or_eq_of_mem_setIfInBounds hfuture
  · exact h.drives future hfuture
  · exact ⟨task, drive, rfl⟩

theorem Invariant.poll (h : d.Invariant) (number : Nat) :
    (d.act (.poll number)).Invariant ∧ d.session.Onward (d.act (.poll number)).session := by
  cases hget : d.futures[number]? with
  | none =>
    have hsame : d.act (.poll number) = d := by simp only [act, Executor.poll, hget]; rfl
    rw [hsame]
    exact ⟨h, h.tidy.onward⟩
  | some future =>
    obtain ⟨task, drive, rfl⟩ := h.drives future (Array.mem_of_getElem? hget)
    have honward := h.tidy.onward_run number task pollBudget drive
    have hact : d.act (.poll number) =
        { session := ((Drive.run machine number task pollBudget drive).run d.session).2
          futures := d.futures.setIfInBounds number (.drive task
            ((Drive.run machine number task pollBudget drive).run d.session).1) } := by
      simp only [act, Executor.poll, hget]
      rfl
    rw [hact]
    exact ⟨⟨honward.tidy, h.drives_set number task _⟩, honward⟩

theorem Invariant.drop (h : d.Invariant) (number : Nat) :
    (d.act (.drop number)).Invariant ∧ d.session.Onward (d.act (.drop number)).session := by
  cases hget : d.futures[number]? with
  | none =>
    have hsame : d.act (.drop number) = d := by simp only [act, Executor.drop, hget]; rfl
    rw [hsame]
    exact ⟨h, h.tidy.onward⟩
  | some future =>
    obtain ⟨task, drive, rfl⟩ := h.drives future (Array.mem_of_getElem? hget)
    have honward : d.session.Onward (drive.abandon.run d.session).2 := by
      cases drive with
      | waiting id report => exact h.tidy.onward_close id
      | _ => exact h.tidy.onward
    have hact : d.act (.drop number) =
        { session := (drive.abandon.run d.session).2
          futures := d.futures.setIfInBounds number (.drive task drive) } := by
      simp only [act, Executor.drop, hget]
      rfl
    rw [hact]
    exact ⟨⟨honward.tidy, h.drives_set number task drive⟩, honward⟩

theorem Invariant.act (h : d.Invariant) (action : HostAction) :
    (d.act action).Invariant ∧ d.session.Onward (d.act action).session := by
  have hkept {s' : Session State} {op : Task.Operation} (hop : op.polledIds = [])
      (hu : d.session.Undergoes s' op) :
      Invariant { d with session := s' } ∧ d.session.Onward s' := by
    have honward : d.session.Onward s' :=
      h.tidy.onward_undergoes hu fun handle id heq => by rw [heq] at hop; cases hop
    exact ⟨⟨honward.tidy, h.drives⟩, honward⟩
  cases action with
  | drive task =>
    refine ⟨⟨h.tidy, fun future hfuture => ?_⟩, h.tidy.onward⟩
    obtain hfuture | rfl := Array.mem_push.1 hfuture
    · exact h.drives future hfuture
    · exact ⟨task, _, rfl⟩
  | poll number => exact h.poll number
  | drop number => exact h.drop number
  | cancel task =>
    obtain ⟨s', hrun, hu⟩ := cancelTask_undergoes h.tidy task
    simp only [Driver.act, hrun]
    exact hkept rfl hu
  | free task =>
    obtain ⟨s', hrun, hu⟩ := freeTask_undergoes h.tidy task
    simp only [Driver.act, hrun]
    exact hkept rfl hu
  | others op hop => exact hkept hop.polledIds (h.tidy.enter_perform hop)

theorem Invariant.run (h : d.Invariant) (actions : List HostAction) :
    (d.run actions).Invariant ∧ d.session.Onward (d.run actions).session := by
  induction actions generalizing d with
  | nil => exact ⟨h, h.tidy.onward⟩
  | cons action actions ih =>
    obtain ⟨hnext, honward⟩ := h.act action
    obtain ⟨hlast, honward'⟩ := ih hnext
    exact ⟨hlast, honward.trans honward'⟩

theorem invariant_initial : Invariant {} :=
  ⟨Session.tidy_initial {} rfl, fun future hfuture => by cases Array.not_mem_empty future hfuture⟩

/-- A poll that is marked as abandoned has its waker armed in the core exactly if it
still is the last poll of a task that has not been freed. Then cancelling the task
brings its continuation, which clears the mark. If it is not, the continuation never
comes and the mark is never cleared. -/
theorem armed_iff_last (actions : List HostAction) {id : Nat}
    (hmark : id ∈ (run {} actions).session.wakes.abandoned) :
    let s := (run {} actions).session
    ((∃ v : Nat, s.core.tasks.wakers[v]? = some (⟨id, .armed⟩ : Waker)) ↔
        ∃ task, s.trace.lastPoll? task = some id) ∧
      (∀ task, s.trace.lastPoll? task = some id →
        id ∉ (run {} (actions ++ [.cancel task])).session.wakes.abandoned) ∧
      ((∀ task, s.trace.lastPoll? task ≠ some id) → ∀ later,
        id ∈ (run {} (actions ++ later)).session.wakes.abandoned ∧
          (run {} (actions ++ later)).session.trace.firings id = []) := by
  intro s
  obtain ⟨hinvariant, -⟩ := invariant_initial.run actions
  have htidy : s.Tidy := hinvariant.tidy
  obtain ⟨stage, hstage⟩ := htidy.stands id
  obtain ⟨hview, rfl | ⟨owner, rfl⟩⟩ := hstage.of_abandoned hmark
  · have hnever : ∀ task, s.trace.lastPoll? task ≠ some id := hstage.last
    refine ⟨?_, fun task htask => absurd htask (hnever task), fun _ later => ?_⟩
    · rw [hstage.armed_iff]
      exact iff_of_false (fun ⟨task, heq⟩ => by cases heq) fun ⟨task, htask⟩ => hnever task htask
    · obtain ⟨-, honward⟩ := hinvariant.run later
      obtain ⟨hlapsed, hmarked⟩ := honward.lost id ⟨hstage, hview⟩
      rw [run_append]
      exact ⟨of_decide_eq_true (Prod.mk.inj hmarked).2, hlapsed.shown⟩
  · have hlast : ∀ task, s.trace.lastPoll? task = some id ↔ task = owner := hstage.last
    refine ⟨?_, fun task htask => ?_, fun hnever => absurd ((hlast owner).2 rfl) (hnever owner)⟩
    · rw [hstage.armed_iff]
      exact iff_of_true ⟨owner, rfl⟩ ⟨owner, (hlast owner).2 rfl⟩
    · obtain rfl := (hlast task).1 htask
      obtain ⟨s', hrun, hu⟩ := cancelTask_undergoes htidy task
      have hact : (run {} (actions ++ [.cancel task])).session = s' := by
        rw [run_append]
        exact congrArg Prod.snd hrun
      rw [hact]
      exact hstage.cancel htidy.sound hu

/-- A task that never ends is driven, and the future that drives it dropped as it waits. -/
def abandoning : List HostAction :=
  [.others (.spawn .stalled) trivial, .drive 1, .poll 0, .drop 0]

theorem armed_after_abandoning :
    1 ∈ (run {} abandoning).session.wakes.abandoned ∧
      ∃ v : Nat,
        (run {} abandoning).session.core.tasks.wakers[v]? = some (⟨1, .armed⟩ : Waker) := by
  have hmark : 1 ∈ (run {} abandoning).session.wakes.abandoned := by decide +kernel
  have hlast : (run {} abandoning).session.trace.lastPoll? 1 = some 1 := by decide +kernel
  exact ⟨hmark, (armed_iff_last abandoning hmark).1.2 ⟨1, hlast⟩⟩

/-- Once its task is freed the poll stays marked, though no task is left and no waker armed. -/
theorem marked_after_free :
    let s := (run {} (abandoning ++ [.free 1])).session
    1 ∈ s.wakes.abandoned ∧ s.core.tasks.tasks.size = 0 ∧
      ∀ w ∈ s.core.tasks.wakers, w.state = .spent := by
  decide +kernel

end Driver
end CoreBridge.Host
