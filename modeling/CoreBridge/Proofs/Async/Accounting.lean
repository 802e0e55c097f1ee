import CoreBridge.Proofs.Async.Standing
import CoreBridge.Proofs.Async.Tidy

/-!
# The books of a task that is driven

Driving a task counts the polls that were made and the continuations that were received. What
really happened stands in the trace: each poll with its id and its answer, each continuation with
its id and its result (`Trace.pollsOf`, `Trace.continuationsOf`). The two agree, whatever happens
to the task between the steps of the drive as long as nobody else polls or frees it. The invariant
is `Accounts`: of all polls made so far only the last one may still be owed its continuation,
and every other one has had one continuation if it answered pending and none if it answered ready.
-/
namespace CoreBridge

/-! ## Polls and continuations in a trace -/

namespace Trace

/-- The polls of a task that a trace shows, each with its id and its answer. -/
def pollsOf (task : Nat) (trace : Trace) : List (Nat × Int) :=
  trace.filterMap fun
    | .polled t id answer => if t = task then some (id, answer) else none
    | _ => none

/-- The continuations of polls with these ids that a trace shows, each with its result. -/
def continuationsOf (ids : List Nat) (trace : Trace) : List (Nat × Int) :=
  trace.filterMap fun
    | .fired id result => if id ∈ ids then some (id, result) else none
    | _ => none

variable {task id : Nat} {ids : List Nat} {trace : Trace}

theorem pollsOf_append (task : Nat) (first second : Trace) :
    pollsOf task (first ++ second) = pollsOf task first ++ pollsOf task second :=
  List.filterMap_append

theorem continuationsOf_append (ids : List Nat) (first second : Trace) :
    continuationsOf ids (first ++ second) =
      continuationsOf ids first ++ continuationsOf ids second := List.filterMap_append

theorem IsQuiet.pollsOf (h : trace.IsQuiet) (task : Nat) : trace.pollsOf task = [] := by
  apply List.filterMap_eq_nil_iff.2
  intro o ho
  have hquiet := h o ho
  cases o <;> first | rfl | exact hquiet.elim

theorem mem_firings {result : Int} (h : Observation.fired id result ∈ trace) :
    result ∈ firings id trace :=
  List.mem_filterMap.2 ⟨_, h, by simp [Observation.firing?]⟩

/-- If of all polls with these ids at most one has had continuations, these are all there are. -/
theorem continuationsOf_eq (hid : id ∈ ids) (h : ∀ i ∈ ids, i ≠ id → trace.firings i = []) :
    trace.continuationsOf ids = (trace.firings id).map fun result => (id, result) := by
  induction trace with
  | nil => rfl
  | cons o trace ih =>
    have hsplit : ∀ i ∈ ids, i ≠ id → (o.firing? i).toList = [] ∧ firings i trace = [] := by
      intro i hi hne
      have hnone := h i hi hne
      rwa [firings_cons, List.append_eq_nil_iff] at hnone
    have hrest := ih fun i hi hne => (hsplit i hi hne).2
    rw [firings_cons, List.map_append, ← hrest]
    cases o with
    | fired i result =>
      by_cases hi : i = id
      · subst hi
        simp [continuationsOf, Observation.firing?, hid]
      · have hnot : i ∉ ids := by
          intro hmem
          have hnone := (hsplit i hmem hi).1
          simp [Observation.firing?] at hnone
        simp [continuationsOf, Observation.firing?, hi, hnot]
    | _ => rfl

theorem continuationsOf_eq_nil (h : ∀ i ∈ ids, trace.firings i = []) :
    trace.continuationsOf ids = [] := by
  apply List.filterMap_eq_nil_iff.2
  intro o ho
  cases o with
  | fired i result =>
    have hnot : i ∉ ids := by
      intro hmem
      have hfired := mem_firings ho
      rw [h i hmem] at hfired
      cases hfired
    simp [hnot]
  | _ => rfl

/-- Polls that have had no continuation add none. -/
theorem continuationsOf_append_ids {more : List Nat} (h : ∀ i ∈ more, trace.firings i = []) :
    trace.continuationsOf (ids ++ more) = trace.continuationsOf ids := by
  apply List.filterMap_congr
  intro o ho
  cases o with
  | fired i result =>
    have hnot : i ∉ more := by
      intro hmem
      have hfired := mem_firings ho
      rw [h i hmem] at hfired
      cases hfired
    simp [hnot]
  | _ => rfl

end Trace

namespace Host

open CoreBridge.Core CoreBridge.Task

namespace WakeRegistry

/-- What a registry makes of a continuation shows no poll. -/
theorem pollsOf_meet (r : WakeRegistry) (o : Observation) (task : Nat) :
    (r.meet o).2.pollsOf task = [] := by
  cases o with
  | fired i result =>
    unfold meet WakeRegistry.deliver
    dsimp only
    split
    · split <;> rfl
    · split <;> rfl
  | _ => rfl

theorem pollsOf_shown {trace : Trace} (h : trace.IsQuiet) (r : WakeRegistry) (task : Nat) :
    (r.shown trace).pollsOf task = [] := by
  induction trace generalizing r with
  | nil => rfl
  | cons o trace ih =>
    obtain ⟨ho, htrace⟩ := List.forall_mem_cons.1 h
    have hself : Trace.pollsOf task [o] = [] := (Trace.isQuiet_singleton ho).pollsOf task
    rw [shown, ← List.singleton_append, Trace.pollsOf_append, Trace.pollsOf_append, hself,
      pollsOf_meet, ih htrace]
    rfl

end WakeRegistry

/-! ## What is shown of an operation -/

/-- A session comes of another one by an operation on the tasks. It shows these polls of a task,
and of continuations what the operation shows. -/
structure Session.Shows (s s' : Session State) (op : Task.Operation) (task : Nat)
    (polls : List (Nat × Int)) : Prop extends s.Performs s' op where
  news : ∃ news, s'.trace = s.trace ++ news ∧ news.pollsOf task = polls ∧
    ∀ id, news.firings id = (s.core.tasks.perform op).trace.firings id

variable {start s s' : Session State} {op : Task.Operation} {task id : Nat}

/-- Others perform an operation, which shows no poll of the host. -/
theorem Session.enter_shows (op : Task.Operation) (task : Nat) (s : Session State) :
    s.Shows ((HostM.enter fun core : State => core.onTasks (·.perform op)).run s).2 op task [] where
  toPerforms :=
    Session.performs_of_deliverAll (Serving.enter_perform op s).1.tasks
      (Serving.enter_perform op s).2
  news := by
    refine ⟨_, HostM.absorb_trace (s.core.tasks.perform op).trace
      { s with core := (s.core.onTasks (·.perform op)).2 }, ?_, ?_⟩
    · exact WakeRegistry.pollsOf_shown (Store.isQuiet_perform _ _) _ _
    · exact WakeRegistry.firings_shown _ _

/-- A poll of the host shows itself. -/
theorem Drive.poll_shows (number task : Nat) (report : PollReport) (s : Session State) :
    let id := s.wakes.nextId
    let step := s.core.tasks.poll task id
    let report' := { report with polls := report.polls + 1 }
    ∃ s', (Drive.poll machine number task report).run s =
        (if step.value = pollReady then .finished report' else .waiting id report', s') ∧
      s.Shows s' (.poll task id) task [(id, step.value)] ∧ id < s'.wakes.nextId ∧
      (step.value ≠ pollReady → s'.wakes.Holds id (step.trace.firings id).head?) := by
  intro id step report'
  obtain ⟨s', hrun, hperforms, hid, hholds⟩ := Drive.poll_machine number task report s
  refine ⟨s', hrun, ⟨hperforms, ?_⟩, hid, hholds⟩
  let r := (s.wakes.register number).2
  obtain ⟨s₁, hcall, -⟩ := HostM.call_onTasks (fun tasks => tasks.poll task id)
    (fun answer => [.polled task id answer]) { s with wakes := r }
  obtain ⟨rest, hrest, htrace⟩ := HostM.call_trace
    (fun core : State => core.onTasks fun tasks => tasks.poll task id)
    (fun answer => [.polled task id answer]) { s with wakes := r }
  rw [hcall] at htrace
  have hsame : s'.trace = s₁.trace := by
    have hpoll := hrun.symm.trans (Drive.poll_eq machine number task report rfl hcall)
    have hafter : s' = _ := congrArg Prod.snd hpoll
    rw [hafter]
    unfold Drive.answered
    dsimp only
    split <;> rfl
  refine ⟨r.shown step.trace ++ [.polled task id step.value] ++ rest, ?_, ?_, ?_⟩
  · rw [hsame, ← List.append_assoc, ← List.append_assoc]
    exact htrace
  · have hself : Trace.pollsOf task [.polled task id step.value] = [(id, step.value)] := by
      simp [Trace.pollsOf]
    have hquiet : step.trace.IsQuiet := Store.isQuiet_perform s.core.tasks (.poll task id)
    rw [Trace.pollsOf_append, Trace.pollsOf_append, hself, hrest.isQuiet.pollsOf,
      WakeRegistry.pollsOf_shown hquiet]
    rfl
  · intro i
    rw [Trace.firings_append, Trace.firings_append, WakeRegistry.firings_shown, hrest.firings,
      List.append_nil]
    exact List.append_nil _

/-- No continuation is invoked for an id that is not issued yet. -/
theorem Session.Orderly.unfired (hs : s.Orderly) (hid : s.wakes.nextId ≤ id)
    (hop : ∀ handle, op ≠ .poll handle id) :
    (s.core.tasks.perform op).trace.firings id = [] :=
  ((hs.below.mono hid).unused.silent.perform hop).2

/-! ## The books -/

/-- The polls of a task made since a start and the continuations that came for them. The core is
done with all of these polls but the one that it owes a continuation, if there is one. -/
structure Books (start : Session State) (task : Nat) (s : Session State)
    (polls continuations : List (Nat × Int)) (owed : Option Nat) : Prop where
  orderly : s.Orderly
  news : ∃ news, s.trace = start.trace ++ news ∧ news.pollsOf task = polls ∧
    news.continuationsOf (polls.map Prod.fst) = continuations ∧
    ∀ id, s.wakes.nextId ≤ id → news.firings id = []
  nodup : (polls.map Prod.fst).Nodup
  fresh : ∀ id ∈ polls.map Prod.fst, start.wakes.nextId ≤ id
  issued : ∀ id ∈ polls.map Prod.fst, id < s.wakes.nextId
  later : start.wakes.nextId ≤ s.wakes.nextId
  silent : ∀ id ∈ polls.map Prod.fst, owed ≠ some id → s.core.tasks.Silent id

namespace Books

variable {polls continuations extra : List (Nat × Int)} {owed : Option Nat}

theorem opened (hs : start.Orderly) : Books start task start [] [] none where
  orderly := hs
  news := ⟨[], (List.append_nil _).symm, rfl, rfl, fun _ _ => rfl⟩
  nodup := List.nodup_nil
  fresh _ hmem := by cases hmem
  issued _ hmem := by cases hmem
  later := le_rfl
  silent _ hmem := by cases hmem

/-- Whatever is shown next, the continuations of new polls are all among it. -/
theorem news_append (h : Books start task s polls continuations owed) {more : Trace}
    {morePolls : List (Nat × Int)} (htrace : s'.trace = s.trace ++ more)
    (hpolls : more.pollsOf task = morePolls) (hids : s.wakes.nextId ≤ s'.wakes.nextId)
    (hnew : ∀ id ∈ morePolls.map Prod.fst, s.wakes.nextId ≤ id)
    (hextra : more.continuationsOf ((polls ++ morePolls).map Prod.fst) = extra)
    (hlate : ∀ id, s'.wakes.nextId ≤ id → more.firings id = []) :
    ∃ news, s'.trace = start.trace ++ news ∧ news.pollsOf task = polls ++ morePolls ∧
      news.continuationsOf ((polls ++ morePolls).map Prod.fst) = continuations ++ extra ∧
      ∀ id, s'.wakes.nextId ≤ id → news.firings id = [] := by
  obtain ⟨news, hbefore, hnews, hcame, hunfired⟩ := h.news
  have hold : news.continuationsOf ((polls ++ morePolls).map Prod.fst) = continuations := by
    rw [List.map_append, Trace.continuationsOf_append_ids fun id hmem => hunfired id (hnew id hmem),
      hcame]
  refine ⟨news ++ more, ?_, ?_, ?_, ?_⟩
  · rw [htrace, hbefore, List.append_assoc]
  · rw [Trace.pollsOf_append, hnews, hpolls]
  · rw [Trace.continuationsOf_append, hold, hextra]
  · intro id hid
    rw [Trace.firings_append, hunfired id (hids.trans hid), hlate id hid]
    rfl

/-- What happens elsewhere is not in the books. -/
theorem elsewhere (h : Books start task s polls continuations owed)
    (htasks : s'.core.tasks = s.core.tasks) (hids : s.wakes.nextId ≤ s'.wakes.nextId)
    {more : Trace} (htrace : s'.trace = s.trace ++ more) (hpolls : more.pollsOf task = [])
    (hfirings : ∀ id, more.firings id = []) :
    Books start task s' polls continuations owed where
  orderly :=
    { sound := htasks ▸ h.orderly.sound
      below := htasks ▸ h.orderly.below.mono hids }
  news := by
    have hnews := h.news_append htrace hpolls hids (List.forall_mem_nil _)
      (Trace.continuationsOf_eq_nil fun id _ => hfirings id) fun id _ => hfirings id
    simpa only [List.append_nil] using hnews
  nodup := h.nodup
  fresh := h.fresh
  issued id hmem := Nat.lt_of_lt_of_le (h.issued id hmem) hids
  later := h.later.trans hids
  silent := htasks ▸ h.silent

/-- What becomes of the wake registry alone is not in the books. -/
theorem rewake {wakes : WakeRegistry} (h : Books start task s polls continuations owed)
    (hids : s.wakes.nextId ≤ wakes.nextId) :
    Books start task { s with wakes } polls continuations owed :=
  h.elsewhere rfl hids (List.append_nil _).symm rfl fun _ => rfl

/-- The polls in the books are shown. -/
theorem mem_pollsOf (h : Books start task s polls continuations owed)
    (hid : id ∈ polls.map Prod.fst) : id ∈ (s.trace.pollsOf task).map Prod.fst := by
  obtain ⟨news, htrace, hnews, -⟩ := h.news
  rw [htrace, Trace.pollsOf_append, hnews, List.map_append]
  exact List.mem_append_right _ hid

/-- The core is done with a poll whose continuation has come. -/
theorem settle (h : Books start task s polls continuations (some id))
    (hsilent : s.core.tasks.Silent id) : Books start task s polls continuations none :=
  { h with
    silent := by
      intro i hmem _
      by_cases hi : i = id
      · exact hi ▸ hsilent
      · exact h.silent i hmem fun heq => hi (Option.some.inj heq).symm }

/-- Others that perform an operation bring no continuation but that of the poll that is owed. -/
theorem perform (h : Books start task s polls continuations owed)
    (hshows : s.Shows s' op task [])
    (hother : ∀ id ∈ polls.map Prod.fst, ∀ handle, op ≠ .poll handle id)
    (hissued : ∀ handle id, op = .poll handle id → id < s.wakes.nextId)
    (hextra : ∀ news : Trace,
      (∀ id, news.firings id = (s.core.tasks.perform op).trace.firings id) →
        news.continuationsOf (polls.map Prod.fst) = extra) :
    Books start task s' polls (continuations ++ extra) owed where
  orderly := h.orderly.follows hshows.toFollows fun handle id heq =>
    Nat.lt_of_lt_of_le (hissued handle id heq) hshows.ids
  news := by
    obtain ⟨more, htrace, hpolls, hfirings⟩ := hshows.news
    have hlate (id : Nat) (hid : s'.wakes.nextId ≤ id) : more.firings id = [] := by
      have hunissued := hshows.ids.trans hid
      rw [hfirings id]
      exact h.orderly.unfired hunissued fun handle heq =>
        Nat.not_lt.2 hunissued (hissued handle id heq)
    have hsame : more.continuationsOf ((polls ++ []).map Prod.fst) = extra := by
      rw [List.append_nil]
      exact hextra more hfirings
    have hnews := h.news_append htrace hpolls hshows.ids (List.forall_mem_nil _) hsame hlate
    simpa only [List.append_nil] using hnews
  nodup := h.nodup
  fresh := h.fresh
  issued id hmem := Nat.lt_of_lt_of_le (h.issued id hmem) hshows.ids
  later := h.later.trans hshows.ids
  silent id hmem howed := by
    rw [hshows.tasks]
    exact ((h.silent id hmem howed).perform (hother id hmem)).1

/-- If the core is done with all polls, others bring no continuation at all. -/
theorem perform_none (h : Books start task s polls continuations none)
    (hshows : s.Shows s' op task [])
    (hother : ∀ id ∈ polls.map Prod.fst, ∀ handle, op ≠ .poll handle id)
    (hissued : ∀ handle id, op = .poll handle id → id < s.wakes.nextId) :
    Books start task s' polls continuations none := by
  have hnext : Books start task s' polls (continuations ++ []) none := by
    apply h.perform hshows hother hissued
    intro news hnews
    apply Trace.continuationsOf_eq_nil
    intro id hmem
    rw [hnews id]
    exact ((h.silent id hmem (Option.some_ne_none id).symm).perform (hother id hmem)).2
  rwa [List.append_nil] at hnext

/-- If the core owes a poll its continuation, others bring what comes for this poll. -/
theorem perform_some (h : Books start task s polls continuations (some id))
    (hid : id ∈ polls.map Prod.fst) (hshows : s.Shows s' op task [])
    (hother : ∀ id ∈ polls.map Prod.fst, ∀ handle, op ≠ .poll handle id)
    (hissued : ∀ handle id, op = .poll handle id → id < s.wakes.nextId) :
    Books start task s' polls (continuations ++
      ((s.core.tasks.perform op).trace.firings id).map fun result => (id, result)) (some id) := by
  apply h.perform hshows hother hissued
  intro news hnews
  rw [← hnews id]
  apply Trace.continuationsOf_eq hid
  intro i hmem hne
  have howed : some id ≠ some i := fun heq => hne (Option.some.inj heq).symm
  rw [hnews i]
  exact ((h.silent i hmem howed).perform (hother i hmem)).2

/-- A poll of the task is entered with its id and its answer. -/
theorem poll {answer : Int} (h : Books start task s polls continuations none)
    (hshows : s.Shows s' (.poll task s.wakes.nextId) task [(s.wakes.nextId, answer)])
    (hids : s.wakes.nextId < s'.wakes.nextId) :
    Books start task s' (polls ++ [(s.wakes.nextId, answer)]) (continuations ++
      ((s.core.tasks.poll task s.wakes.nextId).trace.firings s.wakes.nextId).map
        fun result => (s.wakes.nextId, result)) (some s.wakes.nextId) := by
  have hold (id : Nat) (hmem : id ∈ polls.map Prod.fst) :
      (s.core.tasks.perform (.poll task s.wakes.nextId)).store.Silent id ∧
        (s.core.tasks.perform (.poll task s.wakes.nextId)).trace.firings id = [] := by
    apply (h.silent id hmem (Option.some_ne_none id).symm).perform
    intro handle heq
    exact Nat.ne_of_gt (h.issued id hmem) (Task.Operation.poll.inj heq).2
  have hmap : (polls ++ [(s.wakes.nextId, answer)]).map Prod.fst =
      polls.map Prod.fst ++ [s.wakes.nextId] := List.map_append
  refine ⟨?_, ?_, ?_, ?_, ?_, ?_, ?_⟩
  · apply h.orderly.follows hshows.toFollows
    intro handle id heq
    exact (Task.Operation.poll.inj heq).2 ▸ hids
  · obtain ⟨more, htrace, hpolls, hfirings⟩ := hshows.news
    have hlate (id : Nat) (hid : s'.wakes.nextId ≤ id) : more.firings id = [] := by
      have hunissued := hids.trans_le hid
      rw [hfirings id]
      exact h.orderly.unfired hunissued.le fun handle heq =>
        Nat.ne_of_lt hunissued (Task.Operation.poll.inj heq).2
    have hbrought : more.continuationsOf
        ((polls ++ [(s.wakes.nextId, answer)]).map Prod.fst) =
          (more.firings s.wakes.nextId).map fun result => (s.wakes.nextId, result) := by
      rw [hmap]
      apply Trace.continuationsOf_eq (List.mem_append_right _ (List.mem_singleton_self _))
      intro id hmem hne
      obtain hmem | hmem := List.mem_append.1 hmem
      · rw [hfirings, (hold id hmem).2]
      · exact absurd (List.mem_singleton.1 hmem) hne
    rw [hfirings] at hbrought
    exact h.news_append htrace hpolls hids.le
      (fun id hmem => (List.mem_singleton.1 hmem).ge) hbrought hlate
  · rw [hmap]
    refine h.nodup.append (List.nodup_singleton _) ?_
    intro id hmem hlast
    exact Nat.ne_of_lt (h.issued id hmem) (List.mem_singleton.1 hlast)
  · intro id hmem
    rw [hmap] at hmem
    obtain hmem | hmem := List.mem_append.1 hmem
    · exact h.fresh id hmem
    · exact List.mem_singleton.1 hmem ▸ h.later
  · intro id hmem
    rw [hmap] at hmem
    obtain hmem | hmem := List.mem_append.1 hmem
    · exact (h.issued id hmem).trans hids
    · exact List.mem_singleton.1 hmem ▸ hids
  · exact h.later.trans hids.le
  · intro id hmem howed
    rw [hmap] at hmem
    rw [hshows.tasks]
    obtain hmem | hmem := List.mem_append.1 hmem
    · exact (hold id hmem).1
    · exact absurd (congrArg some (List.mem_singleton.1 hmem).symm) howed

end Books

/-! ## A task that is driven -/

/-- The polls that answered pending and were followed by these continuations. -/
def pendedFor (rounds : List (Nat × Int)) : List (Nat × Int) :=
  rounds.map fun round => (round.1, pollPending)

/-- How the report of a drive stands to the books. In each round so far a poll answered pending
and its continuation said that the task may have progressed. -/
inductive Accounts (start : Session State) (task : Nat) : Drive → Session State → Prop where
  | due {rounds : List (Nat × Int)} {s : Session State} :
      (∀ round ∈ rounds, round.2 ≠ pollReady) →
      Books start task s (pendedFor rounds) rounds none →
      Accounts start task (.polling ⟨rounds.length, rounds.length⟩) s
  /-- The last poll is owed its continuation. -/
  | owed {rounds : List (Nat × Int)} {id : Nat} {s : Session State} :
      (∀ round ∈ rounds, round.2 ≠ pollReady) →
      Books start task s (pendedFor rounds ++ [(id, pollPending)]) rounds (some id) →
      s.wakes.Holds id none → s.core.tasks.Owes task id →
      Accounts start task (.waiting id ⟨rounds.length + 1, rounds.length⟩) s
  /-- The continuation of the last poll has come and is not received yet. -/
  | brought {rounds : List (Nat × Int)} {id : Nat} {result : Int} {s : Session State} :
      (∀ round ∈ rounds, round.2 ≠ pollReady) →
      Books start task s (pendedFor rounds ++ [(id, pollPending)]) (rounds ++ [(id, result)])
        none →
      s.wakes.Holds id (some result) →
      Accounts start task (.waiting id ⟨rounds.length + 1, rounds.length⟩) s
  /-- The last poll answered ready. -/
  | answered {rounds : List (Nat × Int)} {id : Nat} {s : Session State} :
      (∀ round ∈ rounds, round.2 ≠ pollReady) →
      Books start task s (pendedFor rounds ++ [(id, pollReady)]) rounds none →
      Accounts start task (.finished ⟨rounds.length + 1, rounds.length⟩) s
  /-- The last continuation said that the task is ready. -/
  | released {rounds : List (Nat × Int)} {id : Nat} {s : Session State} :
      (∀ round ∈ rounds, round.2 ≠ pollReady) →
      Books start task s (pendedFor rounds ++ [(id, pollPending)]) (rounds ++ [(id, pollReady)])
        none →
      Accounts start task (.finished ⟨rounds.length + 1, rounds.length + 1⟩) s

/-- A task that is driven, in its host. -/
structure Driven where
  drive : Drive
  session : Session State

namespace Driven

variable (number task : Nat)

/-- The next step of the drive, for the host future `number`: a poll, or the receipt of what a
continuation brought. -/
def step : Drive → HostM State Drive
  | .polling report => Drive.poll machine number task report
  | .waiting id report => Drive.receive id report
  | d => return d

/-- What others may perform: they neither poll nor free the task, and they poll other tasks under
ids that were issued to them. -/
structure Admits (r : Driven) (op : Task.Operation) : Prop where
  spares : ¬ op.Supersedes task
  issued : ∀ handle id, op = .poll handle id → id < r.session.wakes.nextId
  other : ∀ id ∈ (r.session.trace.pollsOf task).map Prod.fst, ∀ handle, op ≠ .poll handle id

/-- What else may happen: anything that leaves the tasks and the channel of the drive alone, and
shows no poll of the task and no continuation. -/
structure Keeps (r : Driven) (s : Session State) : Prop where
  tasks : s.core.tasks = r.session.core.tasks
  ids : r.session.wakes.nextId ≤ s.wakes.nextId
  channel : ∀ id report, r.drive = .waiting id report →
    s.wakes.channels.get? id = r.session.wakes.channels.get? id
  news : ∃ news, s.trace = r.session.trace ++ news ∧ news.pollsOf task = [] ∧
    ∀ id, news.firings id = []

/-- What may happen next: the drive takes a step, or something else happens. -/
inductive Next : Driven → Driven → Prop
  | advance {r : Driven} {d : Drive} {s : Session State}
      (h : (step number task r.drive).run r.session = (d, s)) : Next r ⟨d, s⟩
  | perform {r : Driven} {op : Task.Operation} (h : r.Admits task op) : Next r
      ⟨r.drive, ((HostM.enter fun core : State => core.onTasks (·.perform op)).run r.session).2⟩
  | elsewhere {r : Driven} {s : Session State} (h : r.Keeps task s) : Next r ⟨r.drive, s⟩

/-- What may come of a task that is driven. -/
abbrev Reaches : Driven → Driven → Prop := Relation.ReflTransGen (Next number task)

variable {number task} {start s s' : Session State} {r v : Driven} {op : Task.Operation}

/-- Driving a task until the host future has to wait takes steps of the drive. -/
theorem reaches_run (fuel : Nat) (r : Driven) : Reaches number task r
    ⟨((Drive.run machine number task fuel r.drive).run r.session).1,
      ((Drive.run machine number task fuel r.drive).run r.session).2⟩ :=
  Drive.run_keeps (P := fun d s => Reaches number task r ⟨d, s⟩)
    (fun _ _ h => h.tail (.advance rfl)) (fun _ _ _ h => h.tail (.advance rfl)) fuel .refl

end Driven

namespace Accounts

variable {start s s' : Session State} {task number : Nat} {d : Drive} {op : Task.Operation}

/-- What happens elsewhere leaves the report as it stands to the books. -/
theorem elsewhere (h : Accounts start task d s) (hkeeps : Driven.Keeps task ⟨d, s⟩ s') :
    Accounts start task d s' := by
  obtain ⟨more, htrace, hpolls, hfirings⟩ := hkeeps.news
  cases h with
  | due hrounds hbooks =>
    exact .due hrounds (hbooks.elsewhere hkeeps.tasks hkeeps.ids htrace hpolls hfirings)
  | owed hrounds hbooks hholds howes =>
    exact .owed hrounds (hbooks.elsewhere hkeeps.tasks hkeeps.ids htrace hpolls hfirings)
      (hholds.congr (hkeeps.channel _ _ rfl)) (hkeeps.tasks ▸ howes)
  | brought hrounds hbooks hholds =>
    exact .brought hrounds (hbooks.elsewhere hkeeps.tasks hkeeps.ids htrace hpolls hfirings)
      (hholds.congr (hkeeps.channel _ _ rfl))
  | answered hrounds hbooks =>
    exact .answered hrounds (hbooks.elsewhere hkeeps.tasks hkeeps.ids htrace hpolls hfirings)
  | released hrounds hbooks =>
    exact .released hrounds (hbooks.elsewhere hkeeps.tasks hkeeps.ids htrace hpolls hfirings)

/-- Others bring the continuation that is owed, or leave the report as it stands to the books. -/
theorem perform (h : Accounts start task d s) (hadmits : Driven.Admits task ⟨d, s⟩ op) :
    Accounts start task d
      ((HostM.enter fun core : State => core.onTasks (·.perform op)).run s).2 := by
  have hshows := Session.enter_shows op task s
  have hkept {polls continuations : List (Nat × Int)}
      (hbooks : Books start task s polls continuations none) := hbooks.perform_none hshows
    (fun id hmem => hadmits.other id (hbooks.mem_pollsOf hmem)) hadmits.issued
  cases h with
  | due hrounds hbooks => exact .due hrounds (hkept hbooks)
  | answered hrounds hbooks => exact .answered hrounds (hkept hbooks)
  | released hrounds hbooks => exact .released hrounds (hkept hbooks)
  | @brought rounds id _ _ hrounds hbooks hholds =>
    have hid : id ∈ (pendedFor rounds ++ [(id, pollPending)]).map Prod.fst := by simp
    exact .brought hrounds (hkept hbooks) (hshows.channels id (hbooks.issued id hid) _ hholds)
  | @owed rounds id _ hrounds hbooks hholds howes =>
    have hid : id ∈ (pendedFor rounds ++ [(id, pollPending)]).map Prod.fst := by simp
    have hother (i : Nat) (hmem : i ∈ (pendedFor rounds ++ [(id, pollPending)]).map Prod.fst) :=
      hadmits.other i (hbooks.mem_pollsOf hmem)
    have hnext := hbooks.perform_some hid hshows hother hadmits.issued
    have hchannel := hshows.channels id (hbooks.issued id hid) none hholds
    obtain ⟨hsup, -⟩ | ⟨-, -, howes', hfired⟩ | ⟨-, hsilent, result, hfired⟩ :=
      howes.perform hbooks.orderly.sound (hother id hid)
    · exact absurd hsup hadmits.spares
    · rw [hfired] at hnext hchannel
      rw [List.map_nil, List.append_nil] at hnext
      exact .owed hrounds hnext hchannel (hshows.tasks ▸ howes')
    · rw [hfired] at hnext hchannel
      exact .brought hrounds (hnext.settle (hshows.tasks ▸ hsilent)) hchannel

/-- A poll of the drive is counted, and ends the drive, is owed its continuation, or has it. -/
theorem poll {report : PollReport} (h : Accounts start task (.polling report) s)
    (hstep : (Drive.poll machine number task report).run s = (d, s')) :
    Accounts start task d s' := by
  cases h with
  | due hrounds hbooks =>
    obtain ⟨_, hrun, hshows, hid, hholds⟩ := Drive.poll_shows number task _ s
    obtain ⟨rfl, rfl⟩ := Prod.mk.inj (hstep.symm.trans hrun)
    have hnext := hbooks.poll hshows hid
    obtain ⟨hready, hsilent, hfired⟩ |
      ⟨hpending, ⟨-, hsilent, hfired⟩ | ⟨-, howed, hfired⟩⟩ :=
      Store.poll_own hbooks.orderly.below.unused hbooks.orderly.sound task
    · rw [hfired, hready, List.map_nil, List.append_nil] at hnext
      rw [if_pos hready]
      exact .answered hrounds (hnext.settle (hshows.tasks ▸ hsilent))
    · have hne : (s.core.tasks.poll task s.wakes.nextId).value ≠ pollReady := by
        rw [hpending]
        decide
      have hbrought := hholds hne
      rw [hfired, hpending] at hnext
      rw [hfired] at hbrought
      rw [if_neg hne]
      exact .brought hrounds (hnext.settle (hshows.tasks ▸ hsilent)) hbrought
    · have hne : (s.core.tasks.poll task s.wakes.nextId).value ≠ pollReady := by
        rw [hpending]
        decide
      have hnone := hholds hne
      rw [hfired, hpending, List.map_nil, List.append_nil] at hnext
      rw [hfired] at hnone
      rw [if_neg hne]
      exact .owed hrounds hnext hnone (hshows.tasks ▸ ⟨_, howed⟩)

/-- A continuation that has come is received and counted. -/
theorem receive {id : Nat} {report : PollReport} (h : Accounts start task (.waiting id report) s)
    (hstep : (Drive.receive id report).run s = (d, s')) : Accounts start task d s' := by
  obtain ⟨rfl, rfl⟩ := Prod.mk.inj (hstep.symm.trans (Drive.receive_eq id report s))
  cases h with
  | owed hrounds hbooks hholds howes =>
    rw [hholds.received?, if_pos rfl]
    exact .owed hrounds (hbooks.rewake (WakeRegistry.nextId_suspend _ _).ge) hholds.suspend howes
  | @brought rounds _ result _ hrounds hbooks hholds =>
    rw [hholds.received?, if_neg (Option.some_ne_none _)]
    have hclosed : Books start task (Drive.closed id true s)
        (pendedFor rounds ++ [(id, pollPending)]) (rounds ++ [(id, result)]) none :=
      hbooks.rewake le_rfl
    by_cases hready : result = pollReady
    · subst hready
      exact .released hrounds hclosed
    · have hdue : Drive.received id ⟨rounds.length + 1, rounds.length⟩ (some result) =
          .polling ⟨(rounds ++ [(id, result)]).length, (rounds ++ [(id, result)]).length⟩ := by
        simp only [Drive.received, if_neg hready, List.length_append, List.length_singleton]
      have hpended : pendedFor (rounds ++ [(id, result)]) =
          pendedFor rounds ++ [(id, pollPending)] := List.map_append
      rw [hdue]
      refine .due ?_ (hpended ▸ hclosed)
      intro round hmem
      obtain hmem | hmem := List.mem_append.1 hmem
      · exact hrounds round hmem
      · rw [List.mem_singleton.1 hmem]
        exact hready

/-- The steps of the drive keep the report in accord with the books. -/
theorem advance {d' : Drive} (h : Accounts start task d s)
    (hstep : (Driven.step number task d).run s = (d', s')) : Accounts start task d' s' := by
  cases d with
  | polling report => exact h.poll hstep
  | waiting id report => exact h.receive hstep
  | finished report | failed fault =>
    obtain ⟨rfl, rfl⟩ := Prod.mk.inj hstep
    exact h

/-- Whatever happens, the report stays in accord with the books. -/
theorem reaches {r v : Driven} (h : Accounts start task r.drive r.session)
    (hreaches : Driven.Reaches number task r v) : Accounts start task v.drive v.session := by
  induction hreaches with
  | refl => exact h
  | tail _ hstep ih =>
    cases hstep with
    | advance hstep => exact ih.advance hstep
    | perform hadmits => exact ih.perform hadmits
    | elsewhere hkeeps => exact ih.elsewhere hkeeps

end Accounts

/-- The polls that answered pending. -/
def pendingOf (polls : List (Nat × Int)) : List (Nat × Int) :=
  polls.filter fun poll => poll.2 = pollPending

theorem mem_pendedFor {rounds : List (Nat × Int)} {poll : Nat × Int} (h : poll ∈ pendedFor rounds) :
    poll.2 = pollPending := by
  obtain ⟨round, -, rfl⟩ := List.mem_map.1 h
  rfl

theorem pendingOf_pendedFor (rounds : List (Nat × Int)) :
    pendingOf (pendedFor rounds) = pendedFor rounds :=
  List.filter_eq_self.2 fun _ hmem => decide_eq_true (mem_pendedFor hmem)

theorem map_pendedFor (rounds : List (Nat × Int)) :
    (pendedFor rounds).map Prod.fst = rounds.map Prod.fst := by
  simp [pendedFor]

/-- How the report of a drive that has ended tells the polls that were made and the continuations
that came for them. -/
structure Balanced (report : PollReport) (polls continuations : List (Nat × Int)) : Prop where
  answers : ∀ poll ∈ polls, poll.2 = pollReady ∨ poll.2 = pollPending
  polls_eq : report.polls = polls.length
  wakeups_eq : report.wakeups = (pendingOf polls).length
  /-- One continuation came for each poll that answered pending, and in this order. -/
  matched : continuations.map Prod.fst = (pendingOf polls).map Prod.fst
  last_poll : polls.getLast?.map Prod.snd = some pollReady ↔
    report.polls = (pendingOf polls).length + 1
  last_continuation : continuations.getLast?.map Prod.snd = some pollReady ↔
    report.polls = (pendingOf polls).length

theorem balanced_answered {rounds : List (Nat × Int)} (h : ∀ round ∈ rounds, round.2 ≠ pollReady)
    (id : Nat) : Balanced ⟨rounds.length + 1, rounds.length⟩
      (pendedFor rounds ++ [(id, pollReady)]) rounds := by
  have hpending : pendingOf (pendedFor rounds ++ [(id, pollReady)]) = pendedFor rounds := by
    have hlast : pendingOf [(id, pollReady)] = [] := rfl
    rw [pendingOf, List.filter_append, ← pendingOf, ← pendingOf, pendingOf_pendedFor, hlast,
      List.append_nil]
  have hlength : (pendedFor rounds).length = rounds.length := List.length_map _
  constructor
  · intro poll hmem
    obtain hmem | hmem := List.mem_append.1 hmem
    · exact .inr (mem_pendedFor hmem)
    · exact .inl (List.mem_singleton.1 hmem ▸ rfl)
  · simp [hlength]
  · rw [hpending, hlength]
  · rw [hpending, map_pendedFor]
  · rw [hpending, hlength]
    simp
  · rw [hpending, hlength]
    -- No continuation of an earlier round said that the task is ready.
    refine iff_of_false ?_ (Nat.succ_ne_self _)
    intro hlast
    obtain ⟨round, hround, hready⟩ := Option.map_eq_some_iff.1 hlast
    exact h round (List.mem_of_getLast? hround) hready

theorem balanced_released (rounds : List (Nat × Int)) (id : Nat) :
    Balanced ⟨rounds.length + 1, rounds.length + 1⟩
      (pendedFor rounds ++ [(id, pollPending)]) (rounds ++ [(id, pollReady)]) := by
  have hrounds : pendedFor rounds ++ [(id, pollPending)] =
      pendedFor (rounds ++ [(id, pollReady)]) := by simp [pendedFor]
  have hlength : (pendedFor (rounds ++ [(id, pollReady)])).length = rounds.length + 1 := by
    simp [pendedFor]
  rw [hrounds]
  constructor
  · intro poll hmem
    exact .inr (mem_pendedFor hmem)
  · rw [hlength]
  · rw [pendingOf_pendedFor, hlength]
  · rw [pendingOf_pendedFor, map_pendedFor]
  · rw [pendingOf_pendedFor, hlength]
    simp [pendedFor]
  · rw [pendingOf_pendedFor, hlength]
    simp

/-- The report of a drive that has ended tells its books. -/
theorem Accounts.finished {start s : Session State} {task : Nat} {report : PollReport}
    (h : Accounts start task (.finished report) s) :
    ∃ polls continuations, Books start task s polls continuations none ∧
      Balanced report polls continuations := by
  cases h with
  | answered hrounds hbooks => exact ⟨_, _, hbooks, balanced_answered hrounds _⟩
  | released hrounds hbooks => exact ⟨_, _, hbooks, balanced_released _ _⟩

/-- The report of a drive counts what happened. Let a task be driven from any session that is as
runs leave it, and let others do with the core what they like meanwhile, which is to wake wakers
whenever they like, to cancel the task, to start, poll, cancel, collect and free other tasks under
ids of their own, but not to poll or free this one. Once the drive has ended, its report counts
the polls of the task that were made, each under a fresh id of its own, and the continuations that
came for these polls, which are one for each that answered pending, and in this order. The last
poll answered ready exactly if one more was made than answered pending, and the last continuation
said that the task is ready exactly if none was. -/
theorem poll_accounting {start : Session State} (hstart : start.Orderly) {number task : Nat}
    {report : PollReport} {s : Session State}
    (h : Driven.Reaches number task ⟨.polling {}, start⟩ ⟨.finished report, s⟩) :
    ∃ news, s.trace = start.trace ++ news ∧
      let polls := news.pollsOf task
      let continuations := news.continuationsOf (polls.map Prod.fst)
      Balanced report polls continuations ∧
      report.wakeups = continuations.length ∧
      (polls.map Prod.fst).Nodup ∧ ∀ id ∈ polls.map Prod.fst, start.wakes.nextId ≤ id := by
  have hdue : Accounts start task (.polling {}) start :=
    .due (List.forall_mem_nil _) (Books.opened hstart)
  obtain ⟨polls, continuations, hbooks, hbalanced⟩ := (hdue.reaches h).finished
  obtain ⟨news, htrace, rfl, rfl, -⟩ := hbooks.news
  refine ⟨news, htrace, hbalanced, ?_, hbooks.nodup, hbooks.fresh⟩
  have hlength := congrArg List.length hbalanced.matched
  rw [List.length_map, List.length_map] at hlength
  rw [hbalanced.wakeups_eq, hlength]

/-- Wakes itself in its first poll and never ends. -/
def restless : Future TaskResult where
  onPoll
    | 0 => { wakes := [.own 0], ending := .pending }
    | _ => { ending := .pending }

namespace Driven

/-- The drive goes on until it has to wait or has ended. -/
def goOn (r : Driven) : Driven :=
  let next := (Drive.run machine 0 1 3 r.drive).run r.session
  ⟨next.1, next.2⟩

/-- Others perform an operation. -/
def disturb (r : Driven) (op : Task.Operation) : Driven :=
  ⟨r.drive, ((HostM.enter fun core : State => core.onTasks (·.perform op)).run r.session).2⟩

/-- The task of it is driven until the drive has to wait, is cancelled, and is driven again. -/
def restlessRun : Driven :=
  let start : Driven := ⟨.polling {}, { core := {} }⟩
  ((start.disturb (.spawn restless)).goOn.disturb (.cancel 1)).goOn

theorem reaches_goOn (r : Driven) : Reaches 0 1 r r.goOn := reaches_run 3 r

theorem reaches_disturb (r : Driven) {op : Task.Operation} (hspares : ¬ op.Supersedes 1)
    (hpolls : ∀ handle id, op ≠ .poll handle id) : Reaches 0 1 r (r.disturb op) :=
  .single (.perform ⟨hspares, fun handle id heq => absurd heq (hpolls handle id),
    fun id _ handle => hpolls handle id⟩)

theorem Reaches.finished {number task : Nat} {r v : Driven} {report : PollReport}
    (h : Reaches number task r v) (hdrive : v.drive = .finished report) :
    Reaches number task r ⟨.finished report, v.session⟩ := by
  obtain ⟨d, s⟩ := v
  obtain rfl : d = .finished report := hdrive
  exact h

theorem reaches_restlessRun : Reaches 0 1 ⟨.polling {}, { core := {} }⟩ restlessRun := by
  have hspawn : ¬ (Task.Operation.spawn restless).Supersedes 1 := not_false
  have hcancel : ¬ (Task.Operation.cancel 1).Supersedes 1 := not_false
  have hstart := reaches_disturb ⟨.polling {}, { core := {} }⟩ hspawn fun _ _ heq => by cases heq
  have hwaiting := hstart.trans (reaches_goOn _)
  have hcancelled := hwaiting.trans (reaches_disturb _ hcancel fun _ _ heq => by cases heq)
  exact hcancelled.trans (reaches_goOn _)

/-- Its first continuation comes of its own wake, the second one of the cancellation. -/
theorem poll_accounting_restless : restlessRun.drive = .finished ⟨2, 2⟩ ∧
    Balanced ⟨2, 2⟩ [(1, pollPending), (2, pollPending)]
      [(1, pollMaybeReady), (2, pollReady)] := by
  have hdrive : restlessRun.drive = .finished ⟨2, 2⟩ := by cbv
  have hpolls : restlessRun.session.trace.pollsOf 1 = [(1, pollPending), (2, pollPending)] := by cbv
  have hcontinuations : restlessRun.session.trace.continuationsOf [1, 2] =
      [(1, pollMaybeReady), (2, pollReady)] := by cbv
  obtain ⟨news, htrace, hbalanced, -⟩ :=
    poll_accounting (Session.orderly_initial {} rfl {}) (reaches_restlessRun.finished hdrive)
  obtain rfl : restlessRun.session.trace = news := htrace
  rw [hpolls] at hbalanced
  exact ⟨hdrive, hcontinuations ▸ hbalanced⟩

end Driven
end Host
end CoreBridge
