import CoreBridge.Proofs.Async.Footprint

/-!
# A call told alone

What becomes of a call whose future is private is told by the future and by what is done
with this call: `Solo` says how it stands, without the handle of its task and the ids of
its polls. A drive of the task in a host is as the telling says (`Told`), through polls,
receipts and whole runs of the drive (`Drives.run`), whatever else is in the session, and
it moves within its footprint.
-/
namespace CoreBridge.Host

open CoreBridge.Core CoreBridge.Task

/-- How a call stands. -/
inductive Solo where
  | unstarted
  | polling (report : PollReport) (cancelled : Bool)
  /-- The last poll answered pending, and this is what its continuation has brought. -/
  | waiting (report : PollReport) (brought : Option Int) (cancelled : Bool)
  /-- The task has ended, with a result unless it was cancelled. -/
  | finished (report : PollReport) (outcome : Option TaskResult)
  /-- No task was started. -/
  | refused
  | dropped (report : PollReport)

namespace Solo

def report : Solo → PollReport
  | unstarted | refused => {}
  | polling report _ | waiting report _ _ | finished report _ | dropped report => report

/-- Takes what the continuation has brought, if it has come. -/
def receive : Solo → Solo
  | waiting report (some result) cancelled =>
    let report := { report with wakeups := report.wakeups + 1 }
    if result = pollReady then finished report none else polling report cancelled
  | solo => solo

variable (future : Future TaskResult)

/-- A poll of the task, which finds nothing to run if that has been cancelled. -/
def poll (report : PollReport) (cancelled : Bool) : Solo :=
  let polled := { report with polls := report.polls + 1 }
  let turn := future.onPoll report.polls
  if cancelled then finished polled none
  else match turn.ending.result? with
    | some result => finished polled (some result)
    | none =>
      waiting polled (if .own report.polls ∈ turn.wakes then some pollMaybeReady else none) false

/-- Polls the task if that is due. -/
def proceed : Solo → Solo
  | polling report cancelled => poll future report cancelled
  | solo => solo

/-- Drives the task until the call has to wait or the task has ended, in at most `fuel` polls. -/
def run : Nat → Solo → Solo
  | 0, solo => solo
  | fuel + 1, solo =>
    match (solo.proceed future).receive with
    | polling report cancelled => run fuel (polling report cancelled)
    | solo => solo

end Solo

/-- The poll that a drive waits for. -/
def Drive.poll? : Drive → Option Nat
  | waiting id _ => some id
  | _ => none

/-- The report of a drive. -/
def Drive.report : Drive → PollReport
  | polling report | waiting _ report | finished report => report
  | failed _ => {}

/-- What the drive of a task has to itself. -/
def Drive.footprint (task : Nat) (own : Array Nat) (d : Drive) : Footprint := ⟨task, own, d.poll?⟩

/-- How a drive of a task stands in a session, where `own` are the wakers of the polls
made of its future. -/
inductive Told (future : Future TaskResult) (task : Nat) (own : Array Nat) (s : Session State) :
    Drive → Solo → Prop
  | polling {report : PollReport} {cancelled : Bool} {live : LiveTask}
      (hlive : s.core.tasks.tasks.get? task = some live)
      (hserves : live.Serves future own cancelled)
      (hpolls : cancelled = false → own.size = report.polls) :
      Told future task own s (.polling report) (.polling report cancelled)
  | waiting {id : Nat} {report : PollReport} {brought : Option Int} {cancelled : Bool}
      {live : LiveTask} (hlive : s.core.tasks.tasks.get? task = some live)
      (hserves : live.Serves future own cancelled)
      (hpolls : cancelled = false → own.size = report.polls)
      (hawaits : s.Awaits task id own brought) (hsilent : brought = none → cancelled = false)
      (hready : brought = some pollReady → cancelled = true) :
      Told future task own s (.waiting id report) (.waiting report brought cancelled)
  | finished {report : PollReport} {outcome : Option TaskResult} {live : LiveTask}
      (hlive : s.core.tasks.tasks.get? task = some live) (hends : live.Ends future own outcome) :
      Told future task own s (.finished report) (.finished report outcome)

/-- The drive of a task in an orderly session, within its footprint, stands as told. -/
structure Drives (future : Future TaskResult) (task : Nat) (own : Array Nat) (s : Session State)
    (d : Drive) (solo : Solo) : Prop where
  orderly : s.Orderly
  nodup : own.toList.Nodup
  within : (d.footprint task own).Within s
  told : Told future task own s d solo

/-- A drive of a task comes to stand as told, and so moves within its footprint. -/
def Goes (future : Future TaskResult) (task : Nat) (own : Array Nat) (s : Session State)
    (d : Drive) (next : Drive × Session State) (solo : Solo) : Prop :=
  ∃ own', Drives future task own' next.2 next.1 solo ∧
    s.Moves (d.footprint task own) next.2 (next.1.footprint task own')

variable {future : Future TaskResult} {task number fuel : Nat} {own own' : Array Nat}
  {s s' s'' : Session State} {d d' : Drive} {solo solo' : Solo} {report : PollReport}

theorem Told.owns (h : Told future task own s d solo) : s.core.tasks.Owns task future own := by
  cases h with
  | polling hlive hserves => exact Store.owns_of_live hlive hserves.toOwns
  | waiting hlive hserves => exact Store.owns_of_live hlive hserves.toOwns
  | finished hlive hends => exact Store.owns_of_live hlive hends.toOwns

/-- A session in which nothing has changed for the drive. -/
theorem Told.undisturbed (h : Told future task own s d solo)
    (htask : s'.core.tasks.tasks.get? task = s.core.tasks.tasks.get? task)
    (hawaits : ∀ id ∈ d.poll?, ∀ brought, s.Awaits task id own brought →
      s'.Awaits task id own brought) : Told future task own s' d solo := by
  cases h with
  | polling hlive hserves hpolls => exact .polling (htask.trans hlive) hserves hpolls
  | waiting hlive hserves hpolls hbrought hsilent hready =>
    exact .waiting (htask.trans hlive) hserves hpolls (hawaits _ rfl _ hbrought) hsilent hready
  | finished hlive hends => exact .finished (htask.trans hlive) hends

theorem Told.spares (h : Told future task own s d solo)
    (hspares : s.Spares s' (d.footprint task own)) : Told future task own s' d solo :=
  h.undisturbed (hspares.task task rfl) (hspares.awaits task rfl)

theorem Told.report_eq (h : Told future task own s d solo) : d.report = solo.report := by
  cases h <;> rfl

/-- The wakers of the polls are those that the task has. -/
theorem Told.wakers (h : Told future task own s d solo) :
    ((s.core.tasks.tasks.get? task).map LiveTask.wakers).getD #[] = own := by
  cases h with
  | polling hlive hserves => simp [hlive, hserves.wakers]
  | waiting hlive hserves => simp [hlive, hserves.wakers]
  | finished hlive hends => simp [hlive, hends.wakers]

theorem Goes.refl (h : Drives future task own s d solo) :
    Goes future task own s d (d, s) solo := ⟨own, h, .refl h.orderly h.within⟩

theorem Goes.trans {next : Drive × Session State}
    (h : s.Moves (d.footprint task own) s' (d'.footprint task own'))
    (h' : Goes future task own' s' d' next solo) : Goes future task own s d next solo := by
  obtain ⟨more, hdrives, hmoves⟩ := h'
  exact ⟨more, hdrives, h.trans hmoves⟩

theorem Session.Moves.drives (d d' : Drive)
    (h : s.Moves (d.footprint task own) s' (d'.footprint task own'))
    (hnodup : own'.toList.Nodup) (htold : Told future task own' s' d' solo) :
    Goes future task own s d (d', s') solo :=
  ⟨own', ⟨h.orderly, hnodup, h.within, htold⟩, h⟩

/-! ## Polls -/

/-- A poll moves within the footprint of the drive, with the waker that it made. -/
theorem moves_of_poll (hprivate : future.IsPrivate) (hs : s.Orderly)
    (hwithin : Footprint.Within ⟨task, own, none⟩ s) (howns : s.core.tasks.Owns task future own)
    (hperforms : s.Performs s' (.poll task s.wakes.nextId)) (hid : s.wakes.nextId < s'.wakes.nextId)
    (hown : own' = own ∨ own' = own.push s.core.tasks.wakers.size ∧
      s.core.tasks.wakers.size < s'.core.tasks.wakers.size)
    {poll : Option Nat} (hpoll : ∀ id ∈ poll, id = s.wakes.nextId) :
    s.Moves ⟨task, own, none⟩ s' ⟨task, own', poll⟩ := by
  have hsizes : s.core.tasks.wakers.size ≤ s'.core.tasks.wakers.size :=
    hperforms.tasks ▸ Store.size_le_perform s.core.tasks _
  have hmem (w : Nat) (hw : w ∈ own') : w ∈ own ∨ w = s.core.tasks.wakers.size ∧
      s.core.tasks.wakers.size < s'.core.tasks.wakers.size := by
    obtain rfl | ⟨rfl, hlt⟩ := hown
    · exact .inl hw
    · exact (Array.mem_push.1 hw).imp_right fun heq => ⟨heq, hlt⟩
  refine hperforms.moves hs (fun t ht => ht) (fun w hw => ?_) (fun handle id heq => ?_) ?_ ?_
  · exact (howns.mem_of_wakesOf hprivate rfl hw).imp_right Eq.ge
  · obtain ⟨-, rfl⟩ := Task.Operation.poll.inj heq
    exact ⟨le_rfl, hid⟩
  · refine ⟨(hperforms.within hwithin).task, fun w hw => ?_, fun id hmem => hpoll id hmem ▸ hid⟩
    · obtain hold | ⟨rfl, hlt⟩ := hmem w hw
      · exact Nat.lt_of_lt_of_le (hwithin.wakers w hold) hsizes
      · exact hlt
  · exact ⟨fun t ht => .inl ht, fun w hw => (hmem w hw).imp_right fun ⟨heq, _⟩ => heq.ge,
      fun id hmem => .inr (hpoll id hmem).ge⟩

/-- A poll that is left pending is awaited, and its continuation has come if the future
woke the waker meanwhile. -/
theorem awaits_of_pends {live : LiveTask} (hprivate : future.IsPrivate) (hs : s.Orderly)
    (hnodup : own.toList.Nodup) (hmade : ∀ w ∈ own, w < s.core.tasks.wakers.size)
    (hlive : s.core.tasks.tasks.get? task = some live) (hserves : live.Serves future own false)
    (hpends : (future.onPoll own.size).ending = .pending)
    (htasks : s'.core.tasks = (s.core.tasks.poll task s.wakes.nextId).store)
    (hholds : s'.wakes.Holds s.wakes.nextId
      ((s.core.tasks.poll task s.wakes.nextId).trace.firings s.wakes.nextId).head?) :
    s'.Awaits task s.wakes.nextId (own.push s.core.tasks.wakers.size)
      (if .own own.size ∈ (future.onPoll own.size).wakes then some pollMaybeReady else none) := by
  have hwoken : s.core.tasks.wakers.size ∈ s.core.tasks.wakesOf (.poll task s.wakes.nextId) ↔
      .own own.size ∈ (future.onPoll own.size).wakes :=
    Store.size_mem_wakesOf_poll hlive hserves hprivate hnodup hmade hpends
  obtain ⟨_, _, hwaker⟩ :=
    Store.poll_pends hs.sound hs.below.unused hlive hserves.state hpends
  by_cases hown : .own own.size ∈ (future.onPoll own.size).wakes
  · rw [if_pos (hwoken.2 hown)] at hwaker
    rw [hwaker] at hholds
    rw [if_pos hown]
    exact ⟨hholds, fun heq => by cases heq⟩
  · rw [if_neg (mt hwoken.1 hown)] at hwaker
    obtain ⟨howed, hfired⟩ := hwaker
    rw [hfired] at hholds
    rw [if_neg hown]
    exact ⟨hholds, fun _ => ⟨_, Array.back?_push, htasks ▸ howed⟩⟩

/-- A poll of the task comes to what is told of it. -/
theorem Drives.poll (h : Drives future task own s (.polling report) solo)
    (hprivate : future.IsPrivate) (number : Nat) :
    Goes future task own s (.polling report) ((Drive.poll machine number task report).run s)
      (solo.proceed future) := by
  obtain ⟨s', hrun, hperforms, hid, hchannel⟩ := Drive.poll_machine number task report s
  have hmoves {own' : Array Nat} {poll : Option Nat}
      (hown : own' = own ∨ own' = own.push s.core.tasks.wakers.size ∧
        s.core.tasks.wakers.size < s'.core.tasks.wakers.size)
      (hpoll : ∀ id ∈ poll, id = s.wakes.nextId) :
      s.Moves ⟨task, own, none⟩ s' ⟨task, own', poll⟩ :=
    moves_of_poll hprivate h.orderly h.within h.told.owns hperforms hid hown hpoll
  have hnone : ∀ id ∈ (none : Option Nat), id = s.wakes.nextId := fun _ hmem => by cases hmem
  rw [hrun]
  cases h.told with
  | @polling _ cancelled live hlive hserves hpolls =>
    have hlive' : s'.core.tasks.tasks.get? task = some (s.core.tasks.polled live) := by
      rw [hperforms.tasks]
      exact Store.get?_poll_self hlive
    cases cancelled with
    | true =>
      have hready : (s.core.tasks.poll task s.wakes.nextId).value = pollReady :=
        (Store.poll_cancelled hlive hserves.state).1
      rw [if_pos hready]
      exact (hmoves (.inl rfl) hnone).drives (.polling report) (.finished _) h.nodup
        (.finished hlive' (Store.polled_cancelled hserves))
    | false =>
      have hruns : live.Runs future own.size := hserves.state
      have hsize : s'.core.tasks.wakers.size = s.core.tasks.wakers.size + 1 := by
        rw [hperforms.tasks]
        exact Store.size_poll hlive hruns.runnable?
      have hnodup := nodup_push h.nodup h.within.wakers
      have howns := Store.owns_polled (s := s.core.tasks) hserves
      have hturn : own.size = report.polls := hpolls rfl
      simp only [Solo.proceed, Solo.poll, Bool.false_eq_true, if_false, ← hturn]
      cases hends : (future.onPoll own.size).ending.result? with
      | some result =>
        have hended : (s.core.tasks.poll task s.wakes.nextId).value = pollReady ∧
            (s.core.tasks.polled live).Yields result := Store.poll_ends hlive hruns hends
        obtain ⟨hready, hyields⟩ := hended
        rw [if_pos hready]
        exact (hmoves (.inr ⟨rfl, by omega⟩) hnone).drives (.polling report)
          (.finished _) hnodup (.finished hlive' ⟨howns, hyields⟩)
      | none =>
        have hpends := Ending.eq_pending hends
        obtain ⟨hpending, hpolled, _⟩ :=
          Store.poll_pends h.orderly.sound h.orderly.below.unused hlive hruns hpends
        have hne : (s.core.tasks.poll task s.wakes.nextId).value ≠ pollReady := by
          rw [hpending]
          decide
        have hawaits := awaits_of_pends hprivate h.orderly h.nodup h.within.wakers hlive hserves
          hpends hperforms.tasks (hchannel hne)
        have hpolls' : (own.push s.core.tasks.wakers.size).size = own.size + 1 := Array.size_push _
        rw [if_neg hne]
        refine (hmoves (.inr ⟨rfl, by omega⟩) fun id hmem => (Option.some.inj hmem).symm).drives
          (.polling report) (.waiting _ _) hnodup
          (.waiting hlive' ⟨howns, hpolls' ▸ hpolled⟩ (fun _ => ?_) hawaits (fun _ => rfl) ?_)
        · rw [hpolls', hturn]
        · intro heq
          split_ifs at heq
          cases heq

/-! ## Receipts and runs -/

theorem WakeRegistry.get?_suspend_of_ne {i id : Nat} (hne : id ≠ i) (r : WakeRegistry) :
    (r.suspend i).channels.get? id = r.channels.get? id := by
  unfold WakeRegistry.suspend
  split
  · rw [Table.get?_set, if_neg hne.symm]
  · rfl

theorem WakeRegistry.get?_unregister_of_ne {i id : Nat} (hne : id ≠ i) (r : WakeRegistry)
    (armed : Bool) : (r.unregister i armed).channels.get? id = r.channels.get? id :=
  (Table.get?_erase ..).trans (if_neg hne.symm)

/-- A receipt comes to what is told of it. -/
theorem Drives.receive {id : Nat} (h : Drives future task own s (.waiting id report) solo) :
    Goes future task own s (.waiting id report) ((Drive.receive id report).run s) solo.receive := by
  have hother {i : Nat} (hi : i ∉ (Drive.waiting id report).poll?) : i ≠ id := by
    rintro rfl
    exact hi rfl
  rw [Drive.receive_eq]
  cases h.told with
  | @waiting _ _ brought cancelled live hlive hserves hpolls hawaits hsilent hready =>
    rw [hawaits.holds.received?]
    cases brought with
    | none =>
      have hmoves : s.Moves (Drive.footprint task own (.waiting id report))
          { s with wakes := s.wakes.suspend id }
          (Drive.footprint task own (.waiting id report)) :=
        Session.moves_of_channels h.orderly h.within rfl (WakeRegistry.nextId_suspend s.wakes id)
          (fun i hi => WakeRegistry.get?_suspend_of_ne (hother hi) s.wakes)
          ⟨rfl, rfl, fun _ hi => hi⟩
      exact hmoves.drives _ _ h.nodup (.waiting hlive hserves hpolls
        ⟨hawaits.holds.suspend, hawaits.owed⟩ hsilent hready)
    | some result =>
      have hmoves (d' : Drive) (hd' : d'.poll? = none) :
          s.Moves (Drive.footprint task own (.waiting id report)) (Drive.closed id true s)
            (d'.footprint task own) :=
        Session.moves_of_channels h.orderly h.within rfl rfl
          (fun i hi => WakeRegistry.get?_unregister_of_ne (hother hi) s.wakes true)
          ⟨rfl, rfl, fun i hi => by cases hd'.symm.trans hi⟩
      by_cases hresult : result = pollReady
      · obtain rfl : cancelled = true := hready (congrArg some hresult)
        simp only [Drive.received, Solo.receive, hresult, if_true]
        exact (hmoves (.finished _) rfl).drives _ _ h.nodup (.finished hlive hserves.ends)
      · simp only [Drive.received, Solo.receive, hresult, if_false]
        exact (hmoves (.polling _) rfl).drives _ _ h.nodup (.polling hlive hserves hpolls)

/-- Driving the task comes to what is told of it. -/
theorem Drives.run (h : Drives future task own s d solo) (hprivate : future.IsPrivate)
    (number fuel : Nat) :
    Goes future task own s d ((Drive.run machine number task fuel d).run s)
      (solo.run future fuel) := by
  induction fuel generalizing own s d solo with
  | zero => exact .refl h
  | succ fuel ih =>
    have hwaiting {id : Nat} {report : PollReport} {own : Array Nat} {s : Session State}
        {solo : Solo} (h : Drives future task own s (.waiting id report) solo) :
        Goes future task own s (.waiting id report)
          ((Drive.run machine number task (fuel + 1) (.waiting id report)).run s)
          (match solo.receive with
            | .polling report cancelled => .run future fuel (.polling report cancelled)
            | solo => solo) := by
      have hreceived := h.receive
      rcases hreceive : (Drive.receive id report).run s with ⟨d', s'⟩
      rw [Drive.run_waiting hreceive]
      rw [hreceive] at hreceived
      obtain ⟨own', hdrives, hmoves⟩ := hreceived
      generalize solo.receive = solo' at hdrives ⊢
      have htold := hdrives.told
      cases htold with
      | polling => exact .trans hmoves (ih hdrives)
      | waiting => exact ⟨own', hdrives, hmoves⟩
      | finished => exact ⟨own', hdrives, hmoves⟩
    have htold := h.told
    cases htold with
    | @polling report cancelled =>
      have hpolled := h.poll hprivate number
      rcases hpoll : (Drive.poll machine number task report).run s with ⟨d', s'⟩
      have hne : ∀ report', d' ≠ .polling report' := by
        rintro report' rfl
        exact Serving.poll_ne_polling hpoll
      rw [Drive.run_polling hpoll hne]
      rw [hpoll] at hpolled
      obtain ⟨own', hdrives, hmoves⟩ := hpolled
      simp only [Solo.run]
      generalize (Solo.polling report cancelled).proceed future = solo' at hdrives ⊢
      have htold' := hdrives.told
      cases htold' with
      | polling => exact absurd rfl (hne _)
      | waiting => exact .trans hmoves (hwaiting hdrives)
      | finished => exact ⟨own', hdrives, hmoves⟩
    | waiting => exact hwaiting h
    | finished => exact .refl h

end CoreBridge.Host
