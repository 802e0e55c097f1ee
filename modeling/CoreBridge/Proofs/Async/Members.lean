import CoreBridge.Proofs.Async.Jobs

/-!
# What is done with a call

A call (`Member`) is polled, and dropped, as a whole; others wake the wakers of the polls
made of its future, and cancel its task. After each of these the call stands as is told of
it alone, and it has moved within its footprint (`Member.Stands.act`).
-/
namespace CoreBridge.Host

open CoreBridge.Core CoreBridge.Task

variable {ε : Type}

/-! ## Acts -/

/-- A poll of a call before it settles: the task is started and driven. -/
def Call.drive {σ : Type} (core : Core.EntryPoints σ) (op : Operation σ ε) (number fuel : Nat) :
    Call ε → HostM σ (Call ε)
  | .unstarted => do
    match ← HostM.callFallible op.decode op.start with
    | .error error => return .ended (.error error)
    | .ok task => return .driving task (← Drive.run core number task fuel (.polling {}))
  | .driving task d => do return .driving task (← d.run core number task fuel)
  | call => return call

/-- A poll drives the task, and settles the call if the task is no longer driven. -/
theorem Call.poll_eq {σ : Type} (core : Core.EntryPoints σ) (op : Operation σ ε)
    (number fuel : Nat) (call : Call ε) :
    call.poll core op number fuel = (do
      match ← call.drive core op number fuel with
      | .driving task d => Call.settle core op task d
      | call => return call) := by
  cases call with
  | unstarted =>
    simp only [Call.poll, Call.drive, bind_assoc]
    refine bind_congr fun answer => ?_
    cases answer <;> rfl
  | driving => rfl
  | ended => rfl
  | dropped => rfl

/-- A call with what is known of its task: its handle, the wakers of the polls made of its
future, and how it was driven. -/
structure Member (ε : Type) where
  call : Call ε := .unstarted
  task : Option Nat := none
  wakers : Array Nat := #[]
  report : PollReport := {}

/-- What may be done with a call. -/
inductive Act where
  /-- The host polls the call, which starts it the first time. -/
  | poll
  /-- The waker of a poll of the future is woken, the first being that of poll `0`. -/
  | wake (position : Nat)
  /-- The task is cancelled from outside. -/
  | cancel
  /-- The host drops the call. -/
  | drop
deriving DecidableEq, Repr

namespace Member

/-- Takes down what is known of the task once it has been driven. -/
def note (x : Member ε) : Call ε × Session State → Member ε
  | (.driving task d, s) =>
    { x with
      task := some task
      wakers := ((s.core.tasks.tasks.get? task).map LiveTask.wakers).getD #[]
      report := d.report }
  | _ => x

/-- Performs an operation on the tasks of the core. -/
def others (op : Task.Operation) : HostM State Unit := do
  let _ ← HostM.enter fun core : State => core.onTasks (·.perform op)

/-- Does this with the call `number`. -/
def act (job : Job ε) (number : Nat) (x : Member ε) : Act → HostM State (Member ε)
  | .poll => do
    let noted := x.note ((x.call.drive machine job.operation number pollBudget).run (← get))
    return { noted with call := ← x.call.poll machine job.operation number pollBudget }
  | .wake position => do
    if let some waker := x.wakers[position]? then others (.wake waker)
    return x
  | .cancel => do
    if let some task := x.task then others (.cancel task)
    return x
  | .drop => do return { x with call := ← x.call.drop machine }

end Member

namespace Solo

/-- The call is polled. -/
def advance (job : Job ε) (solo : Solo) : Solo :=
  match job.start, solo with
  | .returned future, .unstarted => run future pollBudget (polling {} false)
  | .returned future, solo => run future pollBudget solo
  | _, .unstarted => refused
  | _, solo => solo

/-- A waker is woken; only that of the last poll brings the continuation. -/
def wake (position : Nat) : Solo → Solo
  | waiting report none cancelled =>
    waiting report (if position + 1 = report.polls then some pollMaybeReady else none) cancelled
  | solo => solo

/-- What cancelling the task brings to its last poll: the future may wake the waker as it
is dropped. -/
def farewell (job : Job ε) (polls : Nat) : Int :=
  match job.start with
  | .returned future =>
    if .own (polls - 1) ∈ future.onDrop polls then pollMaybeReady else pollReady
  | _ => pollReady

/-- The task is cancelled. -/
def cancel (job : Job ε) : Solo → Solo
  | polling report _ => polling report true
  | waiting report brought _ =>
    waiting report (some (brought.getD (farewell job report.polls))) true
  | solo => solo

/-- The call is dropped. -/
def drop : Solo → Solo
  | unstarted => dropped {}
  | polling report _ | waiting report _ _ => dropped report
  | solo => solo

def act (job : Job ε) (solo : Solo) : Act → Solo
  | .poll => solo.advance job
  | .wake position => solo.wake position
  | .cancel => solo.cancel job
  | .drop => solo.drop

/-- Whether the call drives no task. -/
def isIdle : Solo → Bool
  | polling .. | waiting .. => false
  | _ => true

/-- Whether the call is over. -/
def isOver : Solo → Bool
  | finished .. | refused | dropped _ => true
  | _ => false

variable {solo : Solo} {job : Job ε}

theorem run_of_isIdle (h : solo.isIdle = true) (future : Future TaskResult) (fuel : Nat) :
    solo.run future fuel = solo := by
  cases fuel with
  | zero => rfl
  | succ fuel => cases solo <;> first | rfl | cases h

theorem advance_of_over (h : solo.isOver = true) : solo.advance job = solo := by
  have hidle : solo.isIdle = true := by cases solo <;> first | rfl | cases h
  unfold advance
  split
  · cases h
  · exact run_of_isIdle hidle _ pollBudget
  · cases h
  · rfl

theorem wake_of_isIdle (h : solo.isIdle = true) (position : Nat) : solo.wake position = solo := by
  cases solo <;> first | rfl | cases h

theorem cancel_of_isIdle (h : solo.isIdle = true) (job : Job ε) : solo.cancel job = solo := by
  cases solo <;> first | rfl | cases h

theorem report_wake (solo : Solo) (position : Nat) : (solo.wake position).report = solo.report := by
  unfold wake
  split <;> rfl

theorem report_cancel (solo : Solo) (job : Job ε) : (solo.cancel job).report = solo.report := by
  cases solo <;> rfl

end Solo

/-! ## How a call stands -/

/-- The poll that a call waits for. -/
def Call.poll? : Call ε → Option Nat
  | driving _ d => d.poll?
  | _ => none

namespace Member

/-- What a call has to itself. -/
def footprint (x : Member ε) : Footprint := ⟨x.task, x.wakers, x.call.poll?⟩

/-- A call of the job stands in the session as told. -/
inductive Stands (job : Job ε) (s : Session State) : Member ε → Solo → Prop
  | unstarted : Stands job s {} .unstarted
  | driving {task : Nat} {d : Drive} {own : Array Nat} {report : PollReport}
      {future : Future TaskResult} {solo : Solo} (hstart : job.start = .returned future)
      (hdrives : Drives future task own s d solo) (hrest : ∀ report, d ≠ .finished report)
      (hreport : solo.report = report) :
      Stands job s ⟨.driving task d, some task, own, report⟩ solo
  | ended {task : Nat} {own : Array Nat} {result : Except (CallError ε) Collection}
      {report : PollReport} {outcome : Option TaskResult}
      (hgone : s.core.tasks.tasks.get? task = none)
      (hresult : result.map Collection.content = job.answer task outcome) :
      Stands job s ⟨.ended result, some task, own, report⟩ (.finished report outcome)
  | refused {error : CallError ε} (herror : job.refusal = .error error) :
      Stands job s ⟨.ended (.error error), none, #[], {}⟩ .refused
  | dropped {task : Option Nat} {own : Array Nat} {report : PollReport}
      (hgone : ∀ t ∈ task, s.core.tasks.tasks.get? t = none) :
      Stands job s ⟨.dropped, task, own, report⟩ (.dropped report)

variable {job : Job ε} {s s' : Session State} {x : Member ε} {solo : Solo} {number : Nat}

/-- A session in which nothing has changed for the call. -/
theorem Stands.spares (h : x.Stands job s solo) (horderly : s'.Orderly)
    (hwithin : x.footprint.Within s') (hspares : s.Spares s' x.footprint) :
    x.Stands job s' solo := by
  cases h with
  | unstarted => exact .unstarted
  | driving hstart hdrives hrest hreport =>
    exact .driving hstart ⟨horderly, hdrives.nodup, hwithin, hdrives.told.spares hspares⟩ hrest
      hreport
  | ended hgone hresult => exact .ended ((hspares.task _ rfl).trans hgone) hresult
  | refused herror => exact .refused herror
  | dropped hgone => exact .dropped fun t ht => (hspares.task t ht).trans (hgone t ht)

/-! ## Polls of a call -/

/-- Settles a call that has been driven, unless it goes on. -/
def settled (job : Job ε) : Call ε × Session State → Call ε × Session State
  | (.driving task d, s) => (Call.settle machine job.operation task d).run s
  | driven => driven

theorem act_poll_run (x : Member ε) : (x.act job number .poll).run s =
    let driven := (x.call.drive machine job.operation number pollBudget).run s
    ({ x.note driven with call := (settled job driven).1 }, (settled job driven).2) := by
  have hpoll : (x.call.poll machine job.operation number pollBudget).run s =
      settled job ((x.call.drive machine job.operation number pollBudget).run s) := by
    rw [Call.poll_eq, StateT.run_bind]
    rcases (x.call.drive machine job.operation number pollBudget).run s with ⟨call, s'⟩
    cases call <;> rfl
  dsimp only
  rw [← hpoll]
  rfl

/-- A call that has been driven and settled stands as told. -/
theorem stands_settled {future : Future TaskResult} {task : Nat} {own : Array Nat} {d : Drive}
    (hstart : job.start = .returned future) (hprivate : future.IsPrivate)
    (h : Drives future task own s d solo) (number fuel : Nat) (x : Member ε) :
    let driven := (Drive.run machine number task fuel d).run s
    let settled := (Call.settle machine job.operation task driven.1).run driven.2
    let next := { x.note (.driving task driven.1, driven.2) with call := settled.1 }
    next.Stands job settled.2 (solo.run future fuel) ∧
      s.Moves (d.footprint task own) settled.2 next.footprint := by
  have hgoes := h.run hprivate number fuel
  generalize (Drive.run machine number task fuel d).run s = driven at hgoes ⊢
  obtain ⟨d', s'⟩ := driven
  obtain ⟨own', hdrives, hmoves⟩ := hgoes
  simp only at hdrives hmoves ⊢
  have hnote : x.note (.driving task d', s') =
      ⟨x.call, some task, own', (solo.run future fuel).report⟩ := by
    simp only [note, hdrives.told.wakers, hdrives.told.report_eq]
  rw [hnote]
  generalize solo.run future fuel = solo' at hdrives ⊢
  have htold := hdrives.told
  cases htold with
  | polling => exact ⟨.driving hstart hdrives (fun _ heq => by cases heq) rfl, hmoves⟩
  | waiting => exact ⟨.driving hstart hdrives (fun _ heq => by cases heq) rfl, hmoves⟩
  | finished =>
    obtain ⟨result, s₂, hsettle, hresult, hgone, hmoves'⟩ := settle_finished job hdrives hprivate
    rw [hsettle]
    exact ⟨.ended hgone hresult, hmoves.trans hmoves'⟩

/-- What an act on the call `x` comes to: the call stands as told, and has moved within its
footprint. -/
def Comes (job : Job ε) (s : Session State) (x : Member ε) (next : Member ε × Session State)
    (solo : Solo) : Prop :=
  next.1.Stands job next.2 solo ∧ s.Moves x.footprint next.2 next.1.footprint

theorem Comes.refl (hs : s.Orderly) (hwithin : x.footprint.Within s) (h : x.Stands job s solo) :
    Comes job s x (x, s) solo := ⟨h, .refl hs hwithin⟩

/-- The first poll of a call starts its task and drives it. -/
theorem comes_started {future : Future TaskResult} (hstart : job.start = .returned future)
    (hprivate : future.IsPrivate) (hs : s.Orderly) (number : Nat) :
    Comes job s {} ((({} : Member ε).act job number .poll).run s)
      (.run future pollBudget (.polling {} false)) := by
  obtain ⟨s', hrun, hperforms⟩ := job.start_spawns (s := s) hstart
  let task := s.core.tasks.nextHandle
  have hnext : s'.core.tasks.nextHandle = task + 1 := by
    rw [hperforms.tasks]
    rfl
  have hlive : s'.core.tasks.tasks.get? task = some { future := some future } := by
    rw [hperforms.tasks]
    exact (Table.get?_set ..).trans (if_pos rfl)
  have hmoves : s.Moves {} s' ⟨task, #[], none⟩ := by
    refine hperforms.moves hs (fun _ heq => by cases heq) (fun _ hw => by cases hw)
      (fun _ _ heq => by cases heq) ⟨fun t ht => ?_, fun w hw => ?_, fun id hid => by cases hid⟩
      ⟨fun t ht => ?_, fun w hw => ?_, fun id hid => by cases hid⟩
    · obtain rfl := Option.some.inj ht
      omega
    · simp at hw
    · obtain rfl := Option.some.inj ht
      exact .inr le_rfl
    · simp at hw
  have hdrives : Drives future task #[] s' (.polling {}) (.polling {} false) :=
    ⟨hmoves.orderly, List.nodup_nil, hmoves.within,
      .polling hlive (LiveTask.serves_new future) fun _ => rfl⟩
  obtain ⟨hstands, hmoves'⟩ := stands_settled hstart hprivate hdrives number pollBudget {}
  have hdrive : (Call.unstarted.drive machine job.operation number pollBudget).run s =
      (.driving task ((Drive.run machine number task pollBudget (.polling {})).run s').1,
        ((Drive.run machine number task pollBudget (.polling {})).run s').2) := by
    simp only [Call.drive, StateT.run_bind, hrun]
    rfl
  rw [act_poll_run, hdrive]
  exact ⟨hstands, hmoves.trans hmoves'⟩

/-- The first poll of a call whose start fails. -/
theorem comes_refused (hstart : ∀ future, job.start ≠ .returned future) (hs : s.Orderly)
    (number : Nat) :
    Comes job s {} ((({} : Member ε).act job number .poll).run s) .refused := by
  obtain ⟨error, s', hrun, herror, htasks, hwakes⟩ := job.start_refused (s := s) hstart
  have hdrive : (Call.unstarted.drive machine job.operation number pollBudget).run s =
      (.ended (.error error), s') := by
    simp only [Call.drive, StateT.run_bind, hrun]
    rfl
  rw [act_poll_run, hdrive]
  have hmoves : s.Moves {} s' {} :=
    Session.moves_of_channels hs (Footprint.within_empty s) htasks (by rw [hwakes])
      (fun id _ => by rw [hwakes]) ⟨rfl, rfl, fun id hid => hid⟩
  exact ⟨.refused herror, hmoves⟩

/-- A poll of a call that drives its task. -/
theorem comes_driven {future : Future TaskResult} {task : Nat} {own : Array Nat} {d : Drive}
    (hstart : job.start = .returned future) (hprivate : future.IsPrivate)
    (h : Drives future task own s d solo) (number : Nat) (report : PollReport) :
    Comes job s ⟨.driving task d, some task, own, report⟩
      ((Member.act job number ⟨.driving task d, some task, own, report⟩ .poll).run s)
      (solo.run future pollBudget) := by
  rw [act_poll_run]
  exact stands_settled hstart hprivate h number pollBudget ⟨.driving task d, some task, own, report⟩

/-! ## Wakes and cancellations -/

section Others

variable {future : Future TaskResult} {task position : Nat} {own : Array Nat} {d : Drive}

theorem others_performs (op : Task.Operation) (s : Session State) :
    ∃ s', (others op).run s = ((), s') ∧ s.Performs s' op := by
  obtain ⟨s', hrun, hcore, hwakes⟩ :=
    HostM.enter_run (fun core : State => core.onTasks (·.perform op)) s
  refine ⟨s', ?_, Session.performs_of_deliverAll (congrArg State.tasks hcore) hwakes⟩
  simp only [others, StateT.run_bind, hrun]
  rfl

theorem wake_of_none (h : Told future task own s d solo) (hposition : own[position]? = none) :
    solo.wake position = solo := by
  have hle : own.size ≤ position := Array.getElem?_eq_none_iff.1 hposition
  cases h with
  | polling => rfl
  | finished => rfl
  | @waiting id report brought cancelled live hlive hserves hpolls hawaits hsilent hready =>
    cases brought with
    | some result => rfl
    | none =>
      have hsize := hpolls (hsilent rfl)
      exact congrArg (Solo.waiting report · cancelled) (if_neg (by omega))

/-- Waking one of the wakers of the polls brings what is told. -/
theorem told_woken {waker : Nat} (h : Drives future task own s d solo)
    (hperforms : s.Performs s' (.wake waker)) (hposition : own[position]? = some waker) :
    Told future task own s' d (solo.wake position) := by
  have htasks : s'.core.tasks.tasks.get? task = s.core.tasks.tasks.get? task := by
    rw [hperforms.tasks]
    exact Store.get?_perform_of_ne (fun heq => by cases heq) (h.within.task task rfl)
  have hdata (id handle : Nat) : Task.Operation.wake waker ≠ .poll handle id := fun heq => by
    cases heq
  cases h.told with
  | polling hlive hserves hpolls => exact .polling (htasks.trans hlive) hserves hpolls
  | finished hlive hends => exact .finished (htasks.trans hlive) hends
  | @waiting id report brought cancelled live hlive hserves hpolls hawaits hsilent hready =>
    have hid := h.within.poll id rfl
    cases brought with
    | some result =>
      refine .waiting (htasks.trans hlive) hserves hpolls ?_ hsilent hready
      exact hperforms.awaits h.orderly hid (hdata id) (fun heq => by cases heq) hawaits
    | none =>
      obtain ⟨w, hback, howed⟩ := hawaits.owed rfl
      have hlast : own[own.size - 1]? = some w := Array.back?_eq_getElem?.symm.trans hback
      have hsize := hpolls (hsilent rfl)
      obtain ⟨hlt, _⟩ := Array.getElem?_eq_some_iff.1 hposition
      by_cases hown : position + 1 = report.polls
      · obtain rfl : waker = w := by
          have hsame : position = own.size - 1 := by omega
          rw [hsame, hlast] at hposition
          exact (Option.some.inj hposition).symm
        have hholds := hperforms.channels id hid none hawaits.holds
        rw [howed.woken (fun heq => by cases heq) (hdata id) (List.mem_singleton.2 rfl)] at hholds
        simp only [Solo.wake, if_pos hown]
        exact .waiting (htasks.trans hlive) hserves hpolls ⟨hholds, fun heq => by cases heq⟩
          (fun heq => by cases heq) fun heq => by cases heq
      · have hne : w ≠ waker := by
          rintro rfl
          have hsame : position = own.size - 1 := by
            rw [← List.getElem?_inj hlt h.nodup, Array.getElem?_toList, Array.getElem?_toList,
              hposition, hlast]
          omega
        simp only [Solo.wake, if_neg hown]
        refine .waiting (htasks.trans hlive) hserves hpolls ?_ hsilent hready
        refine hperforms.awaits h.orderly hid (hdata id)
          (fun _ => ⟨(fun heq => by cases heq), ?_⟩) hawaits
        intro v hv hmem
        obtain rfl := Option.some.inj (hv.symm.trans hback)
        exact hne (List.mem_singleton.1 hmem)

/-- Cancelling the task brings what is told. -/
theorem told_cancelled (h : Drives future task own s d solo) (hprivate : future.IsPrivate)
    (hstart : job.start = .returned future) (hrest : ∀ report, d ≠ .finished report)
    (hperforms : s.Performs s' (.cancel task)) : Told future task own s' d (solo.cancel job) := by
  have hlive' {live : LiveTask} (hlive : s.core.tasks.tasks.get? task = some live) :
      s'.core.tasks.tasks.get? task = some live.forgotten := by
    rw [hperforms.tasks]
    simp only [Store.perform, Task.Step.map, Store.get?_cancel, if_true, hlive, Option.map_some]
  have hdata (id handle : Nat) : Task.Operation.cancel task ≠ .poll handle id := fun heq => by
    cases heq
  cases h.told with
  | polling hlive hserves hpolls =>
    exact .polling (hlive' hlive) hserves.forgotten fun heq => by cases heq
  | finished => exact absurd rfl (hrest _)
  | @waiting id report brought cancelled live hlive hserves hpolls hawaits hsilent hready =>
    have hid := h.within.poll id rfl
    refine .waiting (hlive' hlive) hserves.forgotten (fun heq => by cases heq) ?_
      (fun heq => by cases heq) fun _ => rfl
    cases brought with
    | some result =>
      exact hperforms.awaits h.orderly hid (hdata id) (fun heq => by cases heq) hawaits
    | none =>
      obtain ⟨w, hback, howed⟩ := hawaits.owed rfl
      obtain rfl := hsilent rfl
      have hwoken := Store.mem_wakesOf_cancel hlive hserves hprivate h.nodup hback
      have hfarewell : Solo.farewell job report.polls =
          if w ∈ s.core.tasks.wakesOf (.cancel task) then pollMaybeReady else pollReady := by
        simp only [Solo.farewell, hstart, hwoken, hpolls rfl]
      have hholds := hperforms.channels id hid none hawaits.holds
      rw [howed.cancelled, ← hfarewell] at hholds
      exact ⟨hholds, fun heq => by cases heq⟩

end Others

/-- An operation leaves a call as it stands that has no task. -/
theorem Stands.performs {op : Task.Operation} (h : x.Stands job s solo)
    (hcall : ∀ task d, x.call ≠ .driving task d) (hperforms : s.Performs s' op)
    (hop : ∀ future, op ≠ .spawn future) : x.Stands job s' solo := by
  have hgone {task : Nat} (hnone : s.core.tasks.tasks.get? task = none) :
      s'.core.tasks.tasks.get? task = none := by
    rw [hperforms.tasks]
    exact Store.get?_perform_of_none hnone op fun future heq => absurd heq (hop future)
  cases h with
  | unstarted => exact .unstarted
  | driving => exact absurd rfl (hcall _ _)
  | ended hnone hresult => exact .ended (hgone hnone) hresult
  | refused herror => exact .refused herror
  | dropped hnone => exact .dropped fun t ht => hgone (hnone t ht)

/-- A call that stands drives its task, or it has none and nothing more is told of it. -/
theorem Stands.cases (h : x.Stands job s solo) :
    (∃ task d own report future, x = ⟨.driving task d, some task, own, report⟩ ∧
        job.start = .returned future ∧ Drives future task own s d solo ∧
        (∀ report, d ≠ .finished report) ∧ solo.report = report) ∨
      (∀ task d, x.call ≠ .driving task d) ∧
        (∀ task ∈ x.task, s.core.tasks.tasks.get? task = none) ∧ solo.isIdle = true := by
  cases h with
  | driving hstart hdrives hrest hreport =>
    exact .inl ⟨_, _, _, _, _, rfl, hstart, hdrives, hrest, hreport⟩
  | unstarted =>
    exact .inr ⟨(fun _ _ heq => by cases heq), (fun _ hmem => by cases hmem), rfl⟩
  | refused =>
    exact .inr ⟨(fun _ _ heq => by cases heq), (fun _ hmem => by cases hmem), rfl⟩
  | dropped hgone => exact .inr ⟨(fun _ _ heq => by cases heq), hgone, rfl⟩
  | ended hgone =>
    refine .inr ⟨(fun _ _ heq => by cases heq), fun t ht => ?_, rfl⟩
    rwa [← Option.some.inj ht]

theorem Stands.wake (h : x.Stands job s solo) (hs : s.Orderly) (hwithin : x.footprint.Within s)
    (number position : Nat) :
    Comes job s x ((x.act job number (.wake position)).run s) (solo.wake position) := by
  cases hwaker : x.wakers[position]? with
  | none =>
    have hrun : (x.act job number (.wake position)).run s = (x, s) := by
      simp only [act, hwaker]
      rfl
    have hsolo : solo.wake position = solo := by
      obtain ⟨task, d, own, report, future, rfl, -, hdrives, -, -⟩ | ⟨-, -, hidle⟩ := h.cases
      · exact wake_of_none hdrives.told hwaker
      · exact Solo.wake_of_isIdle hidle position
    rw [hrun, hsolo]
    exact .refl hs hwithin h
  | some waker =>
    obtain ⟨s', hothers, hperforms⟩ := others_performs (.wake waker) s
    have hrun : (x.act job number (.wake position)).run s = (x, s') := by
      simp only [act, hwaker, StateT.run_bind, hothers]
      rfl
    rw [hrun]
    have hmoves : s.Moves x.footprint s' x.footprint := by
      refine hperforms.moves hs (fun _ heq => by cases heq) (fun w hw => ?_)
        (fun _ _ heq => by cases heq) (hperforms.within hwithin) (.refl _ _)
      obtain rfl := List.mem_singleton.1 hw
      exact .inl (Array.mem_of_getElem? hwaker)
    refine ⟨?_, hmoves⟩
    obtain ⟨task, d, own, report, future, rfl, hstart, hdrives, hrest, hreport⟩ |
      ⟨hcall, -, hidle⟩ := h.cases
    · refine .driving hstart ⟨hmoves.orderly, hdrives.nodup, hmoves.within,
        told_woken hdrives hperforms hwaker⟩ hrest ?_
      rw [Solo.report_wake, hreport]
    · rw [Solo.wake_of_isIdle hidle]
      exact h.performs hcall hperforms fun _ heq => by cases heq

theorem Stands.cancel (h : x.Stands job s solo) (hs : s.Orderly) (hwithin : x.footprint.Within s)
    (hprivate : ∀ future, job.start = .returned future → future.IsPrivate) (number : Nat) :
    Comes job s x ((x.act job number .cancel).run s) (solo.cancel job) := by
  cases htask : x.task with
  | none =>
    have hrun : (x.act job number .cancel).run s = (x, s) := by
      simp only [act, htask]
      rfl
    have hsolo : solo.cancel job = solo := by
      obtain ⟨task, d, own, report, future, rfl, -⟩ | ⟨-, -, hidle⟩ := h.cases
      · cases htask
      · exact Solo.cancel_of_isIdle hidle job
    rw [hrun, hsolo]
    exact .refl hs hwithin h
  | some task =>
    obtain ⟨s', hothers, hperforms⟩ := others_performs (.cancel task) s
    have hrun : (x.act job number .cancel).run s = (x, s') := by
      simp only [act, htask, StateT.run_bind, hothers]
      rfl
    rw [hrun]
    obtain ⟨task, d, own, report, future, rfl, hstart, hdrives, hrest, hreport⟩ |
      ⟨hcall, hgone, hidle⟩ := h.cases
    · obtain rfl := Option.some.inj htask
      have hmoves := hperforms.moves_own hs hwithin rfl (fun _ _ heq => by cases heq)
        hdrives.told.owns (hprivate future hstart)
      refine ⟨.driving hstart ⟨hmoves.orderly, hdrives.nodup, hmoves.within,
        told_cancelled hdrives (hprivate future hstart) hstart hrest hperforms⟩ hrest ?_, hmoves⟩
      rw [Solo.report_cancel, hreport]
    · have hnone := hgone task htask
      rw [Solo.cancel_of_isIdle hidle]
      refine ⟨h.performs hcall hperforms (fun _ heq => by cases heq), ?_⟩
      refine hperforms.moves hs (fun t ht => htask.trans ht) (fun w hw => ?_)
        (fun _ _ heq => by cases heq) (hperforms.within hwithin) (.refl _ _)
      simp [Store.wakesOf, hnone] at hw

/-! ## Drops -/

/-- A drive that is abandoned has nothing more to wait for. -/
theorem abandon_moves {future : Future TaskResult} {task : Nat} {own : Array Nat} {d : Drive}
    (h : Drives future task own s d solo) :
    ∃ s', (d.abandon.run s : Unit × Session State) = ((), s') ∧ s'.core = s.core ∧
      s.Moves (d.footprint task own) s' ⟨task, own, none⟩ := by
  have hwithin := h.within
  have htold := h.told
  cases htold with
  | polling => exact ⟨s, rfl, rfl, .refl h.orderly hwithin⟩
  | finished => exact ⟨s, rfl, rfl, .refl h.orderly hwithin⟩
  | @waiting id =>
    refine ⟨Drive.closed id true s, rfl, rfl, ?_⟩
    refine Session.moves_of_channels h.orderly hwithin rfl rfl (fun i hi => ?_)
      ⟨rfl, rfl, (fun _ hmem => by cases hmem)⟩
    refine WakeRegistry.get?_unregister_of_ne ?_ s.wakes true
    rintro rfl
    exact hi rfl

theorem Stands.drop (h : x.Stands job s solo) (hs : s.Orderly) (hwithin : x.footprint.Within s)
    (hprivate : ∀ future, job.start = .returned future → future.IsPrivate) (number : Nat) :
    Comes job s x ((x.act job number .drop).run s) solo.drop := by
  cases h with
  | unstarted => exact ⟨.dropped (fun _ hmem => by cases hmem), .refl hs hwithin⟩
  | ended hgone hresult => exact .refl hs hwithin (.ended hgone hresult)
  | refused herror => exact .refl hs hwithin (.refused herror)
  | dropped hgone => exact .refl hs hwithin (.dropped hgone)
  | @driving task d own report future _ hstart hdrives hrest hreport =>
    obtain ⟨s₁, habandon, hcore, hmoves⟩ := abandon_moves hdrives
    have howns : s₁.core.tasks.Owns task future own := hcore ▸ hdrives.told.owns
    obtain ⟨s', hgive, hgone, hmoves'⟩ :=
      giveUp_cancelled_moves hmoves.orderly hmoves.within howns (hprivate future hstart)
    have hrun : (Member.act job number ⟨.driving task d, some task, own, report⟩ .drop).run s =
        (⟨.dropped, some task, own, report⟩, s') := by
      simp only [act, Call.drop, StateT.run_bind, habandon]
      dsimp only [Bind.bind]
      rw [hgive]
      rfl
    have hsolo : solo.drop = .dropped report := by
      have htold := hdrives.told
      cases htold with
      | polling => rw [← hreport]; rfl
      | waiting => rw [← hreport]; rfl
      | finished => exact absurd rfl (hrest _)
    rw [hrun, hsolo]
    exact ⟨.dropped (fun t ht => by rwa [← Option.some.inj ht]), hmoves.trans hmoves'⟩

/-- A poll of a call comes to what is told of it. -/
theorem Stands.poll (h : x.Stands job s solo) (hs : s.Orderly) (hwithin : x.footprint.Within s)
    (hprivate : ∀ future, job.start = .returned future → future.IsPrivate) (number : Nat) :
    Comes job s x ((x.act job number .poll).run s) (solo.advance job) := by
  cases h with
  | unstarted =>
    cases hstart : job.start with
    | returned future =>
      simp only [Solo.advance, hstart]
      exact comes_started hstart (hprivate future hstart) hs number
    | failed error =>
      simp only [Solo.advance, hstart]
      exact comes_refused (fun _ heq => by rw [hstart] at heq; cases heq) hs number
    | panicked panic =>
      simp only [Solo.advance, hstart]
      exact comes_refused (fun _ heq => by rw [hstart] at heq; cases heq) hs number
  | @driving task d own report future _ hstart hdrives hrest hreport =>
    have hsolo : solo.advance job = solo.run future pollBudget := by
      have htold := hdrives.told
      cases htold <;> simp only [Solo.advance, hstart]
    rw [hsolo]
    exact comes_driven hstart (hprivate future hstart) hdrives number report
  | ended hgone hresult =>
    rw [Solo.advance_of_over rfl]
    exact .refl hs hwithin (.ended hgone hresult)
  | refused herror =>
    rw [Solo.advance_of_over rfl]
    exact .refl hs hwithin (.refused herror)
  | dropped hgone =>
    rw [Solo.advance_of_over rfl]
    exact .refl hs hwithin (.dropped hgone)

/-- After each act the call stands as told, and it has moved within its footprint. -/
theorem Stands.act (h : x.Stands job s solo) (hs : s.Orderly) (hwithin : x.footprint.Within s)
    (hprivate : ∀ future, job.start = .returned future → future.IsPrivate) (number : Nat)
    (a : Act) : Comes job s x ((x.act job number a).run s) (solo.act job a) := by
  cases a with
  | poll => exact h.poll hs hwithin hprivate number
  | wake position => exact h.wake hs hwithin number position
  | cancel => exact h.cancel hs hwithin hprivate number
  | drop => exact h.drop hs hwithin hprivate number

end Member

end CoreBridge.Host
