import CoreBridge.Proofs.Async.Record

/-!
# Driving a task

Each step of a host future that drives a task adds to the record what it does
with the task: a poll, a completion, a cancellation, a release. The invariant
is `Drive.Stands`: all polls but the last left the task pending, and how the
task stands says what the last one answered and what its continuation brought.
-/
namespace CoreBridge.Host

/-- Whether an entry point is a poll that left its task pending. -/
def Entry.Pends (task : Nat) : Entry → Prop
  | .poll t _ status answer => t = task ∧ Succeeded status ∧ answer ≠ pollReady
  | _ => False

/-- Whether an event of a driven task leaves it pending. -/
def Event.Pends (task : Nat) : Event → Prop
  | .fired .. => True
  | .entered entry => entry.Pends task

/-- The last poll among the events of a driven task, which all the others left pending. -/
structure LastPoll (task : Nat) (events : List Event) (id : Nat) (status : CallStatus)
    (answer : Int) (after : List Event) : Prop where
  split : ∃ before, events = before ++ .entered (.poll task id status answer) :: after ∧
    ∀ e ∈ before, e.Pends task
  last : Event.entries after = []

theorem pends_of_entries {task : Nat} {events : List Event} (h : Event.entries events = []) :
    ∀ e ∈ events, e.Pends task := by
  intro e he
  cases e with
  | fired id result => trivial
  | entered entry =>
    have hmem : entry ∈ Event.entries events := List.mem_filterMap.2 ⟨_, he, rfl⟩
    rw [h] at hmem
    exact nomatch hmem

theorem LastPoll.pends {task id : Nat} {events after : List Event} {status : CallStatus}
    {answer : Int} (h : LastPoll task events id status answer after) (hok : Succeeded status)
    (hanswer : answer ≠ pollReady) : ∀ e ∈ events, e.Pends task := by
  obtain ⟨before, rfl, hbefore⟩ := h.split
  intro e he
  obtain he | he := List.mem_append.1 he
  · exact hbefore e he
  · obtain rfl | he := List.mem_cons.1 he
    · exact ⟨rfl, hok, hanswer⟩
    · exact pends_of_entries h.last e he

/-- How a task stands after these events of its driving. Of what happened `later`
the driver does not know yet. -/
def Drive.Stands (task : Nat) (events later : List Event) (wakes : WakeRegistry) (d : Drive) :
    Prop :=
  ∃ id status answer after, LastPoll task events id status answer after ∧
    match d with
    | .failed _ => ¬ Succeeded status
    | .finished _ => Succeeded status ∧
      (answer = pollReady ∨ Event.delivered? id after = some pollReady)
    | .waiting i _ => i = id ∧ Succeeded status ∧ answer ≠ pollReady ∧
      Event.delivered? id after = none ∧ wakes.Holds id (Event.delivered? id (after ++ later))
    | .polling _ => Succeeded status ∧ answer ≠ pollReady ∧
      ∃ result, result ≠ pollReady ∧ Event.delivered? id after = some result

namespace Drive

variable {σ : Type} {core : Core.EntryPoints σ}

/-- The driver of a task that has not ended learnt no more than that it is pending. -/
theorem Stands.unsettled {task : Nat} {events later : List Event} {wakes : WakeRegistry} {d : Drive}
    (h : d.Stands task events later wakes) (hfinished : ∀ report, d ≠ .finished report)
    (hfailed : ∀ fault, d ≠ .failed fault) :
    ∃ id status answer after, LastPoll task events id status answer after ∧ Succeeded status ∧
      answer ≠ pollReady ∧ Event.delivered? id after ≠ some pollReady := by
  obtain ⟨id, status, answer, after, hlast, hd⟩ := h
  refine ⟨id, status, answer, after, hlast, ?_⟩
  cases d with
  | polling report =>
    obtain ⟨hok, hanswer, result, hready, hresult⟩ := hd
    exact ⟨hok, hanswer, by simp [hresult, hready]⟩
  | waiting i report =>
    obtain ⟨_, hok, hanswer, hnone, _⟩ := hd
    exact ⟨hok, hanswer, by simp [hnone]⟩
  | finished report => exact absurd rfl (hfinished report)
  | failed fault => exact absurd rfl (hfailed fault)

/-- A session in which the channel of a poll has been closed. -/
def closed (id : Nat) (armed : Bool) (s : Session σ) : Session σ :=
  { s with wakes := s.wakes.unregister id armed }

/-- How a poll leaves its task, by the answer to it. -/
def answered (id : Nat) (report : PollReport) (s : Session σ) :
    Except Fault Int → Drive × Session σ
  | .error fault => (.failed fault, closed id false s)
  | .ok answer =>
    if answer = pollReady then (.finished report, closed id false s) else (.waiting id report, s)

theorem poll_eq (core : Core.EntryPoints σ) (call task : Nat) (report : PollReport)
    {s s₁ : Session σ} {id : Nat} {wakes : WakeRegistry} {answer : Except Fault Int}
    (hopen : s.wakes.register call = (id, wakes))
    (hcall : (HostM.call (core.poll task id) fun answer => [.polled task id answer]).run
      { s with wakes } = (answer, s₁)) :
    (Drive.poll core call task report).run s =
      answered id { report with polls := report.polls + 1 } s₁ answer := by
  unfold Drive.poll
  simp only [StateT.run_bind, HostM.onWakes_run, hopen]
  dsimp only [Bind.bind]
  rw [hcall]
  cases answer with
  | error fault => rfl
  | ok answer =>
    unfold answered
    dsimp only
    split <;> rfl

/-- What one poll of a task adds to the record, and how it leaves the task. -/
theorem poll_run (core : Core.EntryPoints σ) (call task : Nat) (report : PollReport)
    (s : Session (Spied σ)) :
    ∃ d s' id status answer after, (Drive.poll (spy core) call task report).run s = (d, s') ∧
      s'.core.record = s.core.record ++ .entered (.poll task id status answer) :: after ∧
      Event.entries after = [] ∧
      ((¬ Succeeded status ∧ ∃ fault, d = .failed fault) ∨
        (Succeeded status ∧ answer = pollReady ∧ ∃ report, d = .finished report) ∨
        (Succeeded status ∧ answer ≠ pollReady ∧ (∃ report, d = .waiting id report) ∧
          s'.wakes.Holds id (Event.delivered? id after))) := by
  obtain ⟨id, wakes, hopen⟩ : ∃ id wakes, s.wakes.register call = (id, wakes) := ⟨_, _, rfl⟩
  have hfresh : wakes.Holds id none := by
    have hregister := WakeRegistry.holds_register s.wakes call
    rwa [hopen] at hregister
  obtain ⟨s₁, hcall, hcore, hwakes⟩ := HostM.call_run ((spy core).poll task id)
    (fun answer => [.polled task id answer]) { s with wakes }
  rw [poll_eq (spy core) call task report hopen hcall]
  -- The spied core answers what the core does.
  let reply := (core.poll task id s.core.core).1
  have hreply : ((spy core).poll task id s.core).1 = reply := rfl
  have hrecord : s₁.core.record = s.core.record ++
      .entered (.poll task id reply.status reply.value) :: Event.ofTrace reply.trace := by
    rw [hcore]
    rfl
  have hholds : s₁.wakes.Holds id (Event.delivered? id (Event.ofTrace reply.trace)) := by
    rw [hwakes]
    exact hfresh.deliverAll reply.trace
  simp only [hreply]
  obtain ⟨hok, hclass⟩ | ⟨hnot, fault, hclass⟩ := classifyInfallible_cases reply.status
  · rw [hclass]
    by_cases hready : reply.value = pollReady
    · exact ⟨_, _, id, reply.status, reply.value, _, if_pos hready, hrecord,
        Event.entries_ofTrace _, .inr (.inl ⟨hok, hready, _, rfl⟩)⟩
    · exact ⟨_, _, id, reply.status, reply.value, _, if_neg hready, hrecord,
        Event.entries_ofTrace _, .inr (.inr ⟨hok, hready, ⟨_, rfl⟩, hholds⟩)⟩
  · rw [hclass]
    exact ⟨_, _, id, reply.status, reply.value, _, rfl, hrecord, Event.entries_ofTrace _,
      .inl ⟨hnot, fault, rfl⟩⟩

/-- What taking the result of a poll comes to. -/
def received (id : Nat) (report : PollReport) : Option Int → Drive
  | none => .waiting id report
  | some result =>
    let report := { report with wakeups := report.wakeups + 1 }
    if result = pollReady then .finished report else .polling report

theorem receive_run {s : Session σ} {id : Nat} {d : Option Int} (h : s.wakes.Holds id d)
    (report : PollReport) : ∃ s', (receive id report).run s = (received id report d, s') ∧
      s'.core = s.core ∧ (d = none → s'.wakes.Holds id none) := by
  unfold receive
  simp only [StateT.run_bind, HostM.onWakes_run, h.received?]
  cases d with
  | none => exact ⟨_, rfl, rfl, fun _ => h.suspend⟩
  | some result =>
    refine ⟨closed id true s, ?_, rfl, nofun⟩
    unfold received
    dsimp only [Bind.bind]
    split <;> rfl

variable {call task fuel : Nat} {report : PollReport}

/-- Driving a task that is to be polled goes on from what the poll comes to. -/
theorem run_polling {s s' : Session σ} {d : Drive}
    (hpoll : (Drive.poll core call task report).run s = (d, s'))
    (hd : ∀ report, d ≠ .polling report) :
    (run core call task (fuel + 1) (.polling report)).run s =
      (run core call task (fuel + 1) d).run s' := by
  unfold run
  simp only [StateT.run_bind, hpoll]
  cases d with
  | polling report => exact absurd rfl (hd report)
  | _ => rfl

/-- How driving goes on once the result of a poll was asked for. -/
def goOn (core : Core.EntryPoints σ) (call task fuel : Nat) (s : Session σ) :
    Drive → Drive × Session σ
  | .polling report => (run core call task fuel (.polling report)).run s
  | d => (d, s)

theorem run_waiting {s s' : Session σ} {id : Nat} {d : Drive}
    (hreceive : (receive id report).run s = (d, s')) :
    (run core call task (fuel + 1) (.waiting id report)).run s =
      goOn core call task fuel s' d := by
  rw [run]
  · simp only [pure_bind, StateT.run_bind, hreceive]
    cases d <;> rfl
  · intro report heq
    cases heq

/-- What driving a task adds to the record, and how it leaves the task. -/
def Leaves (task : Nat) (events : List Event) (s : Session (Spied σ))
    (answer : Drive × Session (Spied σ)) : Prop :=
  ∃ more, answer.2.core.record = s.core.record ++ more ∧
    answer.1.Stands task (events ++ more) [] answer.2.wakes

/-- A driver that waits goes on by what was delivered to it, which is what the
events say. -/
theorem waiting_leaves {s : Session (Spied σ)} {events after : List Event} {id : Nat}
    {status : CallStatus} {answer : Int}
    (hlast : LastPoll task events id status answer after) (hok : Succeeded status)
    (hanswer : answer ≠ pollReady) (hholds : s.wakes.Holds id (Event.delivered? id after))
    (hrun : ∀ (s : Session (Spied σ)) (report : PollReport), 0 < fuel →
      Leaves task events s ((run (spy core) call task fuel (.polling report)).run s)) :
    Leaves task events s ((run (spy core) call task (fuel + 1) (.waiting id report)).run s) := by
  obtain ⟨s₁, hreceive, hcore, hwaiting⟩ := receive_run hholds report
  rw [run_waiting hreceive]
  cases hd : Event.delivered? id after with
  | none =>
    refine ⟨[], by simp [received, goOn, hcore], ?_⟩
    rw [List.append_nil]
    refine ⟨id, status, answer, after, hlast, rfl, hok, hanswer, hd, ?_⟩
    rw [List.append_nil, hd]
    exact hwaiting hd
  | some result =>
    by_cases hready : result = pollReady
    · simp only [received, hready, if_true, goOn]
      refine ⟨[], by simp [hcore], ?_⟩
      rw [List.append_nil]
      exact ⟨id, status, answer, after, hlast, hok, .inr (hready ▸ hd)⟩
    · simp only [received, hready, if_false, goOn]
      by_cases hfuel : 0 < fuel
      · obtain ⟨more, hrecord, hstands⟩ :=
          hrun s₁ { report with wakeups := report.wakeups + 1 } hfuel
        exact ⟨more, by rw [hrecord, hcore], hstands⟩
      · obtain rfl : fuel = 0 := by omega
        refine ⟨[], (congrArg Spied.record hcore).trans (List.append_nil _).symm, ?_⟩
        rw [List.append_nil]
        exact ⟨id, status, answer, after, hlast, hok, hanswer, result, hready, hd⟩

/-- A driver that is to poll goes on by what the poll comes to. -/
theorem poll_leaves {s : Session (Spied σ)} {events : List Event}
    (hpends : ∀ e ∈ events, e.Pends task)
    (hrun : ∀ (s : Session (Spied σ)) (events : List Event) (report : PollReport),
      (∀ e ∈ events, e.Pends task) → 0 < fuel →
      Leaves task events s ((run (spy core) call task fuel (.polling report)).run s)) :
    Leaves task events s ((run (spy core) call task (fuel + 1) (.polling report)).run s) := by
  obtain ⟨d, s₁, id, status, answer, after, hpoll, hrecord, hafter, hanswer⟩ :=
    poll_run core call task report s
  let polled := events ++ .entered (.poll task id status answer) :: after
  have hlast : LastPoll task polled id status answer after := ⟨⟨events, rfl, hpends⟩, hafter⟩
  obtain ⟨hnot, fault, rfl⟩ | ⟨hok, hready, report', rfl⟩ |
    ⟨hok, hpending, ⟨report', rfl⟩, hholds⟩ := hanswer
  · rw [run_polling hpoll nofun]
    exact ⟨_, hrecord, id, status, answer, after, hlast, hnot⟩
  · rw [run_polling hpoll nofun]
    exact ⟨_, hrecord, id, status, answer, after, hlast, hok, .inl hready⟩
  · rw [run_polling hpoll nofun]
    have hwait : Leaves task polled s₁
        ((run (spy core) call task (fuel + 1) (.waiting id report')).run s₁) :=
      waiting_leaves hlast hok hpending hholds fun s report hfuel =>
        hrun s polled report (hlast.pends hok hpending) hfuel
    obtain ⟨more, hmore, hstands⟩ := hwait
    refine ⟨.entered (.poll task id status answer) :: after ++ more, ?_, ?_⟩
    · rw [hmore, hrecord, List.append_assoc]
    · rw [← List.append_assoc]
      exact hstands

/-- Driving a task that all events so far left pending polls it until it is
settled, or has to wait, or the fuel is used up. -/
theorem polling_leaves (fuel : Nat) (s : Session (Spied σ)) (events : List Event)
    (report : PollReport) (hpends : ∀ e ∈ events, e.Pends task) (hfuel : 0 < fuel) :
    Leaves task events s ((run (spy core) call task fuel (.polling report)).run s) := by
  induction fuel generalizing s events report with
  | zero => exact absurd hfuel (lt_irrefl 0)
  | succ fuel ih => exact poll_leaves hpends fun s events report => ih s events report

end Drive

/-! ## Ending a task -/

variable {σ ε : Type} {core : Core.EntryPoints σ}

theorem collect_run (core : Core.EntryPoints σ) (decode : Bytes → Except Wire.DecodeError ε)
    (flavour : Flavour) (task : Nat) (s : Session (Spied σ)) :
    ∃ answer s' after, (collect (spy core) decode flavour task).run s = (answer, s') ∧
      s'.core.record = s.core.record ++ .entered (.complete flavour task) :: after ∧
      Event.entries after = [] := by
  obtain ⟨s₁, hcall, hcore, _⟩ := HostM.callFallible_run decode ((spy core).complete flavour task)
    { s with trace := s.trace ++ [.complete flavour task] }
  exact ⟨_, s₁, _, hcall, by rw [hcore]; rfl, Event.entries_ofTrace _⟩

theorem cancelTask_run (core : Core.EntryPoints σ) (task : Nat) (s : Session (Spied σ)) :
    ∃ answer s' after, (cancelTask (spy core) task).run s = (answer, s') ∧
      s'.core.record = s.core.record ++ .entered (.cancel task) :: after ∧
      Event.entries after = [] := by
  obtain ⟨s₁, hcall, hcore, _⟩ := HostM.call_run ((spy core).cancel task) (fun _ => [])
    { s with trace := s.trace ++ [.cancel task] }
  exact ⟨_, s₁, _, hcall, by rw [hcore]; rfl, Event.entries_ofTrace _⟩

theorem freeTask_run (core : Core.EntryPoints σ) (task : Nat) (s : Session (Spied σ)) :
    ∃ answer s' after, (freeTask (spy core) task).run s = (answer, s') ∧
      s'.core.record = s.core.record ++ .entered (.freeTask task) :: after ∧
      Event.entries after = [] := by
  obtain ⟨s₁, hcall, hcore, _⟩ := HostM.call_run ((spy core).freeTask task) (fun _ => [])
    { s with trace := s.trace ++ [.freeTask task] }
  exact ⟨_, s₁, _, hcall, by rw [hcore]; rfl, Event.entries_ofTrace _⟩

namespace Call

theorem noteFailure_run (task : Nat) (verb : String) (answer : Except Fault Unit) (s : Session σ) :
    ∃ s', (noteFailure task verb answer).run s = ((), s') ∧ s'.core = s.core := by
  cases answer <;> exact ⟨_, rfl, rfl⟩

/-- Freeing a task and logging if that fails. -/
theorem freed_run (core : Core.EntryPoints σ) (task : Nat) (s : Session (Spied σ)) :
    ∃ s' after, (freeTask (spy core) task >>= noteFailure task "free").run s = ((), s') ∧
      s'.core.record = s.core.record ++ .entered (.freeTask task) :: after ∧
      Event.entries after = [] := by
  obtain ⟨answer, s₁, after, hrun, hrecord, hafter⟩ := freeTask_run core task s
  obtain ⟨s₂, hlog, hcore⟩ := noteFailure_run task "free" answer s₁
  refine ⟨s₂, after, ?_, by rw [hcore, hrecord], hafter⟩
  rw [StateT.run_bind, hrun]
  exact hlog

/-- Giving up a task frees it once, and cancels it before if it is told to,
whatever the core reports about either. -/
theorem giveUp_run (core : Core.EntryPoints σ) (task : Nat) (cancelFirst : Bool)
    (s : Session (Spied σ)) :
    ∃ s' closing, (giveUp (spy core) task cancelFirst).run s = ((), s') ∧
      s'.core.record = s.core.record ++ closing ∧
      Event.entries closing = (if cancelFirst then [.cancel task] else []) ++ [.freeTask task] := by
  cases cancelFirst with
  | false =>
    obtain ⟨s₁, after, hrun, hrecord, hafter⟩ := freed_run core task s
    exact ⟨s₁, _, hrun, hrecord, by simp [hafter]⟩
  | true =>
    obtain ⟨answer, s₁, after, hcancel, hrecord, hafter⟩ := cancelTask_run core task s
    obtain ⟨s₂, hlog, hcore⟩ := noteFailure_run task "cancel" answer s₁
    obtain ⟨s₃, after', hrun, hrecord', hafter'⟩ := freed_run core task s₂
    refine ⟨s₃, .entered (.cancel task) :: after ++ .entered (.freeTask task) :: after', ?_, ?_,
      by simp [hafter, hafter']⟩
    · unfold giveUp
      simp only [if_true, StateT.run_bind, hcancel]
      dsimp only [Bind.bind]
      rw [hlog]
      exact hrun
    · rw [hrecord', hcore, hrecord]
      simp

/-- How a call stands once its task is settled. -/
theorem settle_run (op : Operation (Spied σ) ε) (task : Nat) (d : Drive) (s : Session (Spied σ)) :
    ∃ c s' closing, (settle (spy core) op task d).run s = (c, s') ∧
      s'.core.record = s.core.record ++ closing ∧
      match d with
      | .finished _ => (∃ result, c = .ended result) ∧
        Event.entries closing = [.complete op.flavour task, .freeTask task]
      | .failed fault => c = .ended (.error (.fault fault)) ∧
        Event.entries closing = [.cancel task, .freeTask task]
      | d => c = .driving task d ∧ closing = [] ∧ s' = s := by
  cases d with
  | polling report => exact ⟨_, s, [], rfl, (List.append_nil _).symm, rfl, rfl, rfl⟩
  | waiting id report => exact ⟨_, s, [], rfl, (List.append_nil _).symm, rfl, rfl, rfl⟩
  | failed fault =>
    obtain ⟨s₁, closing, hrun, hrecord, hclosing⟩ := giveUp_run core task true s
    refine ⟨.ended (.error (.fault fault)), s₁, closing, ?_, hrecord, rfl, hclosing⟩
    unfold settle
    simp only [StateT.run_bind, hrun]
    rfl
  | finished report =>
    obtain ⟨answer, s₁, after, hcollect, hrecord, hafter⟩ :=
      collect_run core op.decode op.flavour task s
    obtain ⟨s₂, closing, hrun, hrecord', hclosing⟩ := giveUp_run core task false s₁
    refine ⟨.ended answer, s₂, .entered (.complete op.flavour task) :: after ++ closing, ?_, ?_,
      ⟨answer, rfl⟩, by simp [hafter, hclosing]⟩
    · unfold settle
      simp only [StateT.run_bind, hcollect]
      dsimp only [Bind.bind]
      rw [hrun]
      rfl
    · rw [hrecord', hrecord, List.append_assoc]

end Call

end CoreBridge.Host
