import CoreBridge.Proofs.Async.Serving
import CoreBridge.Proofs.Async.Steps

/-!
# How a call stands

Unless its task is cancelled, the continuation of each poll that a call waits for
says no more than that the task may have progressed, so the call polls until the
future of the task ends. The invariant is `Serving.Invariant`. It is kept by the
steps of the call and by whatever else happens between them, and it bounds the
steps that the call takes.
-/
namespace CoreBridge.Host

open CoreBridge.Core CoreBridge.Task

/-- The future of a task is pending `k` times and then comes to a result that a
caller reads as `expected`. -/
structure ComesTo (schema : Wire.Schema) (t te : Wire.Ty) (k : Nat)
    (expected : Except (CallError Wire.Value) Wire.Value) (lowered : Future TaskResult)
    (result : TaskResult) : Prop where
  pends : ∀ n < k, (lowered.onPoll n).ending = .pending
  ends : (lowered.onPoll k).ending.result? = some result
  fits : ∀ value, result = .ok value → value.fits .buffer
  read : readCollected schema t te (.ofResult result) = expected

variable {schema : Wire.Schema} {t te : Wire.Ty} {k : Nat}
  {expected : Except (CallError Wire.Value) Wire.Value}

namespace Serving

/-- Whether the call has its task, which is cancelled or else as said. -/
def HasTask (task : Nat) (P : LiveTask → Prop) (r : Serving) : Prop :=
  ∃ live, r.session.core.tasks.tasks.get? task = some live ∧
    if r.cancelled then live.cancelled = true else P live

/-- How a poll stands that the call waits for: a continuation has come, which says
that the task may have progressed unless it is cancelled, or it is owed. -/
def Awaits (task id : Nat) (r : Serving) : Prop :=
  if r.due then
    ∃ result, r.session.wakes.Holds id (some result) ∧
      (r.cancelled = false → result ≠ pollReady)
  else r.cancelled = false ∧ r.session.wakes.Holds id none ∧
    ∃ w, r.session.core.tasks.Owed task w ⟨id, .armed⟩

/-- What a caller is to read in the end. -/
def Answers (schema : Wire.Schema) (t : Wire.Ty)
    (expected : Except (CallError Wire.Value) Wire.Value) (answer : Answer) (r : Serving) : Prop :=
  ∀ host : Session State, ((liftAnswer schema t answer).run host).1 =
    if r.cancelled then .error .cancelled else expected

/-- How a call stands at a stage, whose task comes to a result after `k` polls that
pend. It takes two steps for each of these and three once the future has ended. -/
def Stands (schema : Wire.Schema) (t : Wire.Ty) (k : Nat)
    (expected : Except (CallError Wire.Value) Wire.Value) (lowered : Future TaskResult)
    (result : TaskResult) (task : Nat) (r : Serving) : Stage → Prop
  | .driving (.polling _) =>
    ∃ n ≤ k, r.HasTask task (·.Runs lowered n) ∧ r.steps ≤ 2 * n
  | .driving (.waiting id _) =>
    ∃ n ≤ k, r.HasTask task (·.Runs lowered n) ∧ r.steps < 2 * n ∧ r.Awaits task id
  | .driving (.finished _) => r.HasTask task (·.Yields result) ∧ r.steps ≤ 2 * k + 1
  | .driving (.failed _) => False
  | .collected answer => r.Answers schema t expected answer ∧ r.steps ≤ 2 * k + 2
  | .ended answer =>
    r.Answers schema t expected answer ∧ r.session.core.tasks.tasks.get? task = none

/-- The invariant of a call. -/
structure Invariant (schema : Wire.Schema) (t : Wire.Ty) (k : Nat)
    (expected : Except (CallError Wire.Value) Wire.Value) (lowered : Future TaskResult)
    (result : TaskResult) (task : Nat) (r : Serving) : Prop where
  orderly : r.session.Orderly
  issued : task < r.session.core.tasks.nextHandle
  stands : r.Stands schema t k expected lowered result task r.stage

variable {lowered : Future TaskResult} {result : TaskResult} {number task id : Nat}
  {P : LiveTask → Prop} {r v : Serving} {op : Task.Operation}

theorem issued_follows {s s' : Session State} (h : task < s.core.tasks.nextHandle)
    (hfollows : s.Follows s' op) : task < s'.core.tasks.nextHandle := by
  rw [hfollows.tasks, Store.nextHandle_perform]
  cases op with
  | spawn future => exact Nat.lt_succ_of_lt h
  | _ => exact h

/-- What is done with others leaves the call its task. -/
theorem HasTask.follows (h : r.HasTask task P) (hissued : task < r.session.core.tasks.nextHandle)
    (hfollows : r.session.Follows v.session op) (hop : op.target? ≠ some task)
    (hcancelled : v.cancelled = r.cancelled) : v.HasTask task P := by
  obtain ⟨live, hlive, hP⟩ := h
  refine ⟨live, ?_, hcancelled ▸ hP⟩
  rw [hfollows.tasks, Store.get?_perform_of_ne hop hissued, hlive]

theorem HasTask.of_cancelled {Q : LiveTask → Prop} (h : r.HasTask task P)
    (hcancelled : r.cancelled = true) : r.HasTask task Q := by
  obtain ⟨live, hlive, hP⟩ := h
  rw [if_pos hcancelled] at hP
  exact ⟨live, hlive, by rw [if_pos hcancelled]; exact hP⟩

theorem HasTask.congr (h : r.HasTask task P)
    (htasks : v.session.core.tasks = r.session.core.tasks)
    (hcancelled : v.cancelled = r.cancelled) : v.HasTask task P := by
  unfold HasTask
  rwa [htasks, hcancelled]

/-- A call that takes no step stands as before if it still has its task, awaits what
it awaited and, once its task is collected, learns of no cancellation. -/
theorem Stands.undisturbed {stage : Stage}
    (h : r.Stands schema t k expected lowered result task stage) (hsteps : v.steps = r.steps)
    (htask : stage.isDriving = true → ∀ P, r.HasTask task P → v.HasTask task P)
    (hawaits : ∀ id report, stage = .driving (.waiting id report) → r.Awaits task id →
      v.Awaits task id)
    (hcancelled : stage.isDriving = false → v.cancelled = r.cancelled)
    (hfreed : r.session.core.tasks.tasks.get? task = none →
      v.session.core.tasks.tasks.get? task = none) :
    v.Stands schema t k expected lowered result task stage := by
  unfold Stands Answers at h ⊢
  cases stage with
  | driving d =>
    rw [hsteps]
    cases d with
    | polling report =>
      obtain ⟨n, hn, hbefore, hle⟩ := h
      exact ⟨n, hn, htask rfl _ hbefore, hle⟩
    | waiting id report =>
      obtain ⟨n, hn, hbefore, hlt, hwaiting⟩ := h
      exact ⟨n, hn, htask rfl _ hbefore, hlt, hawaits id report rfl hwaiting⟩
    | finished report =>
      obtain ⟨hbefore, hle⟩ := h
      exact ⟨htask rfl _ hbefore, hle⟩
    | failed fault => exact h
  | collected answer =>
    rw [hsteps, hcancelled rfl]
    exact h
  | ended answer =>
    obtain ⟨hanswers, hnone⟩ := h
    rw [hcancelled rfl]
    exact ⟨hanswers, hfreed hnone⟩

/-! ## Others -/

theorem enter_perform (op : Task.Operation) (s : Session State) :
    let s' := ((HostM.enter fun core : State => core.onTasks (·.perform op)).run s).2
    s.Follows s' op ∧ s'.wakes = s.wakes.deliverAll (s.core.tasks.perform op).trace := by
  intro s'
  obtain ⟨s₁, hrun, hcore, hwakes⟩ :=
    HostM.enter_run (fun core : State => core.onTasks (·.perform op)) s
  obtain rfl : s' = s₁ := congrArg Prod.snd hrun
  have hids : s'.wakes.nextId = s.wakes.nextId := by
    rw [hwakes, WakeRegistry.nextId_deliverAll]
  exact ⟨⟨congrArg State.tasks hcore, hids.ge⟩, hwakes⟩

theorem perform_follows (r : Serving) (task : Nat) (op : Task.Operation) :
    r.session.Follows (r.perform task op).session op := (enter_perform op r.session).1

theorem perform_wakes (r : Serving) (task : Nat) (op : Task.Operation) :
    (r.perform task op).session.wakes =
      r.session.wakes.deliverAll (r.session.core.tasks.perform op).trace :=
  (enter_perform op r.session).2

theorem Admits.target_ne (h : r.Admits task op) (hdriving : r.stage.isDriving = true)
    (hop : op ≠ .cancel task) : op.target? ≠ some task := by
  intro htarget
  obtain hcancels | ⟨answer, hanswer⟩ := h.target htarget
  · exact hop (Task.Operation.cancels_iff.1 hcancels)
  · rw [hanswer] at hdriving
    cases hdriving

theorem perform_cancelled (hop : op ≠ .cancel task) :
    (r.perform task op).cancelled = r.cancelled := by
  have hcancels : op.cancels task = false :=
    Bool.eq_false_iff.2 (mt Task.Operation.cancels_iff.1 hop)
  simp only [perform, hcancels, Bool.and_false, Bool.or_false]

theorem perform_cancelled_of_not_driving (hstage : r.stage.isDriving = false) :
    (r.perform task op).cancelled = r.cancelled := by
  simp only [perform, hstage, Bool.false_and, Bool.or_false]

theorem perform_cancel (hdriving : r.stage.isDriving = true) :
    (r.perform task (.cancel task)).cancelled = true := by
  simp only [perform, hdriving, Task.Operation.cancels, decide_true, Bool.and_true, Bool.or_true]

/-- Others leave the call its task or cancel it. -/
theorem HasTask.perform (h : r.HasTask task P) (hissued : task < r.session.core.tasks.nextHandle)
    (hadmits : r.Admits task op) (hdriving : r.stage.isDriving = true) :
    (r.perform task op).HasTask task P := by
  by_cases hop : op = .cancel task
  · subst hop
    obtain ⟨live, hlive, _⟩ := h
    refine ⟨live.forgotten, ?_, ?_⟩
    · rw [(perform_follows r task (.cancel task)).tasks]
      simp only [Store.perform, Task.Step.map, Store.get?_cancel, if_true, hlive, Option.map_some]
    · rw [perform_cancel hdriving, if_pos rfl]
      rfl
  · exact h.follows hissued (perform_follows r task op) (hadmits.target_ne hdriving hop)
      (perform_cancelled hop)

/-- What the continuation brought stays in the channel of the call. -/
theorem Awaits.perform_due (h : r.Awaits task id) (hdue : r.due = true)
    (hdriving : r.stage.isDriving = true) : (r.perform task op).Awaits task id := by
  unfold Awaits at h
  rw [if_pos hdue] at h
  obtain ⟨result, hholds, hpending⟩ := h
  have hdue' : (r.perform task op).due = true := by
    simp only [Serving.perform, hdue, Bool.true_or]
  unfold Awaits
  rw [if_pos hdue']
  refine ⟨result, ?_, fun hkept => ?_⟩
  · rw [perform_wakes]
    exact hholds.deliverAll _
  · by_cases hop : op = .cancel task
    · subst hop
      rw [perform_cancel hdriving] at hkept
      cases hkept
    · exact hpending (perform_cancelled hop ▸ hkept)

/-- A continuation that the call is owed comes when others wake the waker of the
poll or cancel the task, and stays owed otherwise. -/
theorem Awaits.perform_owed {report : PollReport} {w : Nat} (hs : r.session.Orderly)
    (hadmits : r.Admits task op) (hstage : r.stage = .driving (.waiting id report))
    (hdue : r.due = false) (hkept : r.cancelled = false) (hholds : r.session.wakes.Holds id none)
    (howed : r.session.core.tasks.Owed task w ⟨id, .armed⟩) :
    (r.perform task op).Awaits task id := by
  have hdriving : r.stage.isDriving = true := by
    rw [hstage]
    rfl
  have hdata (handle : Nat) : op ≠ .poll handle id :=
    fun heq => hadmits.other handle id report heq hstage
  have hchannel : (r.perform task op).session.wakes.Holds id
      ((r.session.core.tasks.perform op).trace.firings id).head? := by
    rw [perform_wakes, ← Event.delivered?_ofTrace]
    exact hholds.deliverAll _
  unfold Awaits
  by_cases hop : op = .cancel task
  · -- The future may wake the waker when it is dropped, so what has come may say either.
    subst hop
    obtain ⟨_, hfired⟩ := howed.released hdata ⟨not_false, .inl rfl⟩
    obtain ⟨result, hfired⟩ := List.length_eq_one_iff.1 hfired
    have hdue' : (r.perform task (.cancel task)).due = true := by
      simp [Serving.perform, Task.Operation.cancels]
    rw [if_pos hdue', perform_cancel hdriving]
    rw [hfired] at hchannel
    exact ⟨result, hchannel, fun hkept => by cases hkept⟩
  · have htarget := hadmits.target_ne hdriving hop
    have hdue' : (r.perform task op).due = decide (w ∈ r.session.core.tasks.wakesOf op) := by
      have hcancels : op.cancels task = false :=
        Bool.eq_false_iff.2 (mt Task.Operation.cancels_iff.1 hop)
      simp only [Serving.perform, hdue, hcancels, Bool.false_or, Store.wakesPending,
        howed.pending]
    rw [perform_cancelled hop, hdue']
    simp only [decide_eq_true_eq]
    by_cases hwoken : w ∈ r.session.core.tasks.wakesOf op
    · rw [howed.woken htarget hdata hwoken] at hchannel
      rw [if_pos hwoken]
      exact ⟨pollMaybeReady, hchannel, fun _ => by decide⟩
    · have hrel : ¬ r.session.core.tasks.Releases task w op := by
        rintro ⟨_, hcancel | hmem⟩
        · exact hop hcancel
        · exact hwoken hmem
      obtain ⟨howed', hfired⟩ :=
        howed.kept hs.sound hdata (Task.Operation.not_supersedes htarget) hrel
      rw [hfired] at hchannel
      rw [if_neg hwoken]
      exact ⟨hkept, hchannel, w, (perform_follows r task op).tasks ▸ howed'⟩

/-- A poll that the call waits for is not forgotten by others. -/
theorem Awaits.perform {report : PollReport} (h : r.Awaits task id) (hs : r.session.Orderly)
    (hadmits : r.Admits task op) (hstage : r.stage = .driving (.waiting id report)) :
    (r.perform task op).Awaits task id := by
  by_cases hdue : r.due = true
  · exact h.perform_due hdue (by rw [hstage]; rfl)
  · unfold Awaits at h
    rw [if_neg hdue] at h
    obtain ⟨hkept, hholds, w, howed⟩ := h
    exact .perform_owed hs hadmits hstage (Bool.eq_false_iff.2 hdue) hkept hholds howed

/-- Others keep the invariant. -/
theorem Invariant.perform (hr : r.Invariant schema t k expected lowered result task)
    (hadmits : r.Admits task op) :
    (r.perform task op).Invariant schema t k expected lowered result task where
  orderly := by
    refine hr.orderly.follows (perform_follows r task op) fun handle id heq => ?_
    exact Nat.lt_of_lt_of_le (hadmits.issued handle id heq) (perform_follows r task op).ids
  issued := issued_follows hr.issued (perform_follows r task op)
  stands := by
    refine hr.stands.undisturbed rfl ?_ ?_ ?_ ?_
    · intro hdriving P htask
      exact htask.perform hr.issued hadmits hdriving
    · intro id report hstage hawaits
      exact hawaits.perform hr.orderly hadmits hstage
    · exact perform_cancelled_of_not_driving
    · intro hnone
      rw [(perform_follows r task op).tasks]
      exact Store.get?_perform_of_none hnone op fun _ _ => Nat.ne_of_lt hr.issued

theorem Awaits.keeps {s : Session State} {report : PollReport} (h : r.Awaits task id)
    (hkeeps : r.Keeps s) (hstage : r.stage = .driving (.waiting id report)) :
    Awaits task id { r with session := s } := by
  have hchannel := hkeeps.channel id report hstage
  unfold Awaits at h ⊢
  by_cases hdue : r.due = true
  · rw [if_pos hdue] at h ⊢
    obtain ⟨result, hholds, hpending⟩ := h
    exact ⟨result, hholds.congr hchannel, hpending⟩
  · rw [if_neg hdue] at h ⊢
    obtain ⟨hcancelled, hholds, w, howed⟩ := h
    exact ⟨hcancelled, hholds.congr hchannel, w, hkeeps.tasks ▸ howed⟩

/-- What happens elsewhere keeps the invariant. -/
theorem Invariant.elsewhere {s : Session State}
    (hr : r.Invariant schema t k expected lowered result task) (hkeeps : r.Keeps s) :
    Invariant schema t k expected lowered result task { r with session := s } where
  orderly :=
    { sound := hkeeps.tasks ▸ hr.orderly.sound
      below := hkeeps.tasks ▸ hr.orderly.below.mono hkeeps.ids }
  issued := hkeeps.tasks ▸ hr.issued
  stands := by
    refine hr.stands.undisturbed rfl ?_ ?_ (fun _ => rfl) ?_
    · intro _ P htask
      exact htask.congr hkeeps.tasks rfl
    · intro id report hstage hawaits
      exact hawaits.keeps hkeeps hstage
    · intro hnone
      rw [hkeeps.tasks, hnone]

/-! ## The call itself -/

variable {decode : Bytes → Except Wire.DecodeError Wire.Value} {report : PollReport}

theorem invariant_advance {stage : Stage} {s : Session State}
    (hstep : (r.stage.step decode number task).run r.session = (stage, s)) (horderly : s.Orderly)
    (hissued : task < s.core.tasks.nextHandle)
    (hstands : (r.advance decode number task).session = s →
      (r.advance decode number task).Stands schema t k expected lowered result task stage) :
    (r.advance decode number task).Invariant schema t k expected lowered result task := by
  obtain ⟨hstage, rfl⟩ := advance_eq hstep
  exact ⟨horderly, hissued, hstage ▸ hstands rfl⟩

/-- A poll of the task of a call finds it cancelled or ends it, or it leaves it
pending for one poll more, and the continuation comes at once or is owed. -/
theorem poll_task {s : Store} {data n : Nat} {live : LiveTask} {cancelled : Bool}
    (hcomes : ComesTo schema t te k expected lowered result) (hs : s.Sound)
    (hdata : s.Unused data) (hlive : s.tasks.get? task = some live)
    (hruns : if cancelled then live.cancelled = true else live.Runs lowered n) (hn : n ≤ k) :
    ((s.poll task data).value = pollReady ∧
      if cancelled then (s.polled live).cancelled = true else (s.polled live).Yields result) ∨
    ((s.poll task data).value ≠ pollReady ∧ cancelled = false ∧ n < k ∧
      (s.polled live).Runs lowered (n + 1) ∧
      if s.wakers.size ∈ s.wakesOf (.poll task data) then
        (s.poll task data).trace.firings data = [pollMaybeReady]
      else (s.poll task data).store.Owed task s.wakers.size ⟨data, .armed⟩ ∧
        (s.poll task data).trace.firings data = []) := by
  cases cancelled with
  | true =>
    rw [if_pos rfl] at hruns ⊢
    exact .inl (Store.poll_cancelled hlive hruns)
  | false =>
    rw [if_neg Bool.false_ne_true] at hruns ⊢
    obtain hlt | rfl := Nat.lt_or_eq_of_le hn
    · obtain ⟨hpending, hpolled, hwaker⟩ :=
        Store.poll_pends hs hdata hlive hruns (hcomes.pends n hlt)
      refine .inr ⟨?_, rfl, hlt, hpolled, hwaker⟩
      rw [hpending]
      decide
    · exact .inl (Store.poll_ends hlive hruns hcomes.ends)

/-- The call polls its task. -/
theorem Invariant.advance_polling (hcomes : ComesTo schema t te k expected lowered result)
    (hr : r.Invariant schema t k expected lowered result task)
    (hstage : r.stage = .driving (.polling report)) :
    (r.advance decode number task).Invariant schema t k expected lowered result task := by
  have hstands := hr.stands
  rw [hstage] at hstands
  obtain ⟨n, hn, ⟨live, hlive, hruns⟩, hsteps⟩ := hstands
  obtain ⟨s, hrun, ⟨hfollows, _⟩, hid, hchannel⟩ :=
    Drive.poll_machine number task report r.session
  have horderly : s.Orderly := by
    refine hr.orderly.follows hfollows fun handle id heq => ?_
    obtain ⟨_, rfl⟩ := Task.Operation.poll.inj heq
    exact hid
  have hstep (d : Drive)
      (hpoll : (Drive.poll machine number task report).run r.session = (d, s)) :
      (r.stage.step decode number task).run r.session = (.driving d, s) := by
    rw [hstage]
    exact congrArg (fun answer => (Stage.driving answer.1, answer.2)) hpoll
  have hlive' : s.core.tasks.tasks.get? task = some (r.session.core.tasks.polled live) := by
    rw [hfollows.tasks]
    exact Store.get?_poll_self hlive
  have hmore : (r.advance decode number task).steps = r.steps + 1 := by
    simp only [steps_advance, hstage, Stage.waits, Bool.false_and, Bool.false_eq_true, if_false]
  obtain ⟨hready, hpolled⟩ | ⟨hready, hkept, hlt, hpolled, hwaker⟩ :=
    poll_task hcomes hr.orderly.sound hr.orderly.below.unused hlive hruns hn
  · rw [if_pos hready] at hrun
    refine invariant_advance (hstep _ hrun) horderly (issued_follows hr.issued hfollows) ?_
    intro hs
    exact ⟨⟨_, hs ▸ hlive', hpolled⟩, by omega⟩
  · rw [if_neg hready] at hrun
    refine invariant_advance (hstep _ hrun) horderly (issued_follows hr.issued hfollows) ?_
    intro hs
    have htask : (r.advance decode number task).HasTask task (·.Runs lowered (n + 1)) := by
      refine ⟨_, hs ▸ hlive', ?_⟩
      rw [cancelled_advance, if_neg (by simp [hkept])]
      exact hpolled
    refine ⟨n + 1, hlt, htask, by omega, ?_⟩
    have hholds := hchannel hready
    unfold Awaits
    rw [due_advance, hstage, hs]
    simp only [Stage.polls, if_true, decide_eq_true_eq]
    split_ifs at hwaker ⊢ with hwoken
    · rw [hwaker] at hholds
      exact ⟨pollMaybeReady, hholds, fun _ => by decide⟩
    · obtain ⟨howed, hfired⟩ := hwaker
      rw [hfired] at hholds
      exact ⟨hkept, hholds, _, hfollows.tasks ▸ howed⟩

/-- A step in which the call takes what a continuation brought leaves the core alone. -/
theorem invariant_receive {d : Option Int}
    (hr : r.Invariant schema t k expected lowered result task)
    (hstage : r.stage = .driving (.waiting id report)) (hholds : r.session.wakes.Holds id d)
    (hnext : (r.advance decode number task).session.core = r.session.core →
      (d = none → (r.advance decode number task).session.wakes.Holds id none) →
      (r.advance decode number task).Stands schema t k expected lowered result task
        (.driving (Drive.received id report d))) :
    (r.advance decode number task).Invariant schema t k expected lowered result task := by
  obtain ⟨s, hrun, hcore, hagain⟩ := Drive.receive_run hholds report
  have hids : s.wakes.nextId = r.session.wakes.nextId := by
    have hids := Drive.receive_nextId id report r.session
    rwa [hrun] at hids
  have hstep : (r.stage.step decode number task).run r.session =
      (.driving (Drive.received id report d), s) := by
    rw [hstage]
    exact congrArg (fun answer => (Stage.driving answer.1, answer.2)) hrun
  refine invariant_advance hstep ⟨?_, ?_⟩ ?_ ?_
  · rw [hcore]
    exact hr.orderly.sound
  · rw [hcore, hids]
    exact hr.orderly.below
  · rw [hcore]
    exact hr.issued
  · rintro rfl
    exact hnext hcore hagain

/-- The call takes what the continuation brought, if it has come. -/
theorem Invariant.advance_waiting (hr : r.Invariant schema t k expected lowered result task)
    (hstage : r.stage = .driving (.waiting id report)) :
    (r.advance decode number task).Invariant schema t k expected lowered result task := by
  have hstands := hr.stands
  rw [hstage] at hstands
  obtain ⟨n, hn, htask, hsteps, hawaits⟩ := hstands
  have hdue : (r.advance decode number task).due = r.due := by
    simp only [due_advance, hstage, Stage.polls, Bool.false_eq_true, if_false]
  have hmore : (r.advance decode number task).steps = if r.due then r.steps + 1 else r.steps := by
    cases hwoken : r.due <;> simp [steps_advance, hstage, Stage.waits, hwoken]
  unfold Awaits at hawaits
  split_ifs at hawaits hmore with hwoken
  · obtain ⟨brought, hholds, hpending⟩ := hawaits
    refine invariant_receive hr hstage hholds fun hcore _ => ?_
    have htask' : (r.advance decode number task).HasTask task (·.Runs lowered n) :=
      htask.congr (congrArg State.tasks hcore) rfl
    by_cases hready : brought = pollReady
    · -- Only the continuation of a cancelled task says that it is ready.
      have hcancelled : r.cancelled = true := by
        by_contra hkept
        exact hpending (Bool.eq_false_iff.2 hkept) hready
      simp only [Drive.received, hready, if_true]
      exact ⟨htask'.of_cancelled hcancelled, by omega⟩
    · simp only [Drive.received, hready, if_false]
      exact ⟨n, hn, htask', by omega⟩
  · -- The call waits in vain, which is no step.
    obtain ⟨hkept, hholds, w, howed⟩ := hawaits
    refine invariant_receive hr hstage hholds fun hcore hagain => ?_
    refine ⟨n, hn, htask.congr (congrArg State.tasks hcore) rfl, by omega, ?_⟩
    unfold Awaits
    rw [hdue, if_neg hwoken, hcore]
    exact ⟨hkept, hagain rfl, w, howed⟩

/-- The call collects its task. -/
theorem Invariant.advance_finished (hcomes : ComesTo schema t te k expected lowered result)
    (hr : r.Invariant schema t k expected lowered result task)
    (hstage : r.stage = .driving (.finished report)) :
    (r.advance (schema.decode te) number task).Invariant schema t k expected lowered result
      task := by
  have hstands := hr.stands
  rw [hstage] at hstands
  obtain ⟨⟨live, hlive, hyields⟩, hsteps⟩ := hstands
  obtain ⟨answer, s, hrun, hfollows, hread⟩ := collect_machine schema t te task r.session
  have hstep : (r.stage.step (schema.decode te) number task).run r.session =
      (.collected answer, s) := by
    rw [hstage]
    simp only [Stage.step, StateT.run_bind, hrun]
    rfl
  have horderly : s.Orderly := hr.orderly.follows hfollows fun _ _ heq => by cases heq
  refine invariant_advance hstep horderly (issued_follows hr.issued hfollows) fun _ =>
    ⟨fun host => ?_, ?_⟩
  · have hsame : (r.advance (schema.decode te) number task).cancelled = r.cancelled := rfl
    rw [hread, hsame]
    split_ifs at hyields ⊢ with hcancelled
    · rw [Store.complete_cancelled hlive hyields]
      rfl
    · rw [Store.complete_yields hlive hyields hcomes.fits, hcomes.read]
  · have hmore : (r.advance (schema.decode te) number task).steps = r.steps + 1 := by
      simp only [steps_advance, hstage, Stage.waits, Bool.false_and, Bool.false_eq_true, if_false]
    omega

/-- The call frees its task. -/
theorem Invariant.advance_collected {answer : Answer}
    (hr : r.Invariant schema t k expected lowered result task)
    (hstage : r.stage = .collected answer) :
    (r.advance decode number task).Invariant schema t k expected lowered result task := by
  have hstands := hr.stands
  rw [hstage] at hstands
  obtain ⟨s, hrun, ⟨hfollows, _⟩⟩ := giveUp_machine task r.session
  have hstep : (r.stage.step decode number task).run r.session = (.ended answer, s) := by
    rw [hstage]
    simp only [Stage.step, StateT.run_bind, hrun]
    rfl
  have horderly : s.Orderly := hr.orderly.follows hfollows fun _ _ heq => by cases heq
  refine invariant_advance hstep horderly (issued_follows hr.issued hfollows) fun hs =>
    ⟨hstands.1, ?_⟩
  rw [hs, hfollows.tasks]
  simp only [Store.perform, Task.Step.map, Store.get?_free, if_true]

/-- The steps of the call keep the invariant. -/
theorem Invariant.advance (hcomes : ComesTo schema t te k expected lowered result)
    (hr : r.Invariant schema t k expected lowered result task) :
    (r.advance (schema.decode te) number task).Invariant schema t k expected lowered result
      task := by
  cases hstage : r.stage with
  | driving d =>
    cases d with
    | polling report => exact hr.advance_polling hcomes hstage
    | waiting id report => exact hr.advance_waiting hstage
    | finished report => exact hr.advance_finished hcomes hstage
    | failed fault =>
      have hstands := hr.stands
      rw [hstage] at hstands
      exact hstands.elim
  | collected answer => exact hr.advance_collected hstage
  | ended answer =>
    have hstands := hr.stands
    rw [hstage] at hstands
    have hstep : (r.stage.step (schema.decode te) number task).run r.session =
        (.ended answer, r.session) := by
      rw [hstage]
      rfl
    exact invariant_advance hstep hr.orderly hr.issued fun hs => ⟨hstands.1, hs ▸ hstands.2⟩

end Serving
end CoreBridge.Host
