import CoreBridge.Proofs.Async.Progress

/-!
# What calls leave in the wake registry

Any number of calls are under way, each at a step of its own, and nobody else polls or
frees a task. A channel is then kept for exactly the polls that calls wait for, and a
mark for at most the last poll of a task whose call is being dropped, until the task is
cancelled (`Calls.Invariant`). So no poll lapses: each continuation finds the channel or
the mark of its poll, and a call that has ended leaves neither behind.
-/
namespace CoreBridge.Host

open CoreBridge.Core CoreBridge.Task

variable {ε : Type}

namespace Progress

/-- The task of a call, until it has been freed. -/
def task? : Progress ε → Option Nat
  | stands (.driving task _) | leaving task _ | freeing task _ => some task
  | stands _ => none

/-- The poll that a call waits for. -/
def waits? : Progress ε → Option Nat
  | stands (.driving _ (.waiting id _)) => some id
  | _ => none

/-- Whether the call is to cancel its task. -/
def isLeaving : Progress ε → Bool
  | leaving .. => true
  | _ => false

theorem eq_of_waits? {p : Progress ε} {id : Nat} (h : p.waits? = some id) :
    ∃ task report, p = .stands (.driving task (.waiting id report)) := by
  unfold waits? at h
  split at h
  · obtain rfl := Option.some.inj h
    exact ⟨_, _, rfl⟩
  · cases h

theorem isLeaving_of_waits? {p : Progress ε} {id : Nat} (h : p.waits? = some id) :
    p.isLeaving = false := by
  cases p with
  | leaving task outcome => cases h
  | _ => rfl

end Progress

/-- Calls under way in a host, with the ids of the polls that each has made. -/
structure Calls (ε : Type) where
  session : Session State := { core := {} }
  progress : Nat → Progress ε := fun _ => .stands .unstarted
  polls : Nat → List Nat := fun _ => []

namespace Calls

/-- The ids that were issued between two sessions. -/
def issued (s s' : Session State) : List Nat :=
  List.range' s.wakes.nextId (s'.wakes.nextId - s.wakes.nextId)

/-- The calls once the call `n` has got so far. -/
def put (c : Calls ε) (n : Nat) (p : Progress ε) (s' : Session State) : Calls ε where
  session := s'
  progress := Function.update c.progress n p
  polls := Function.update c.polls n (c.polls n ++ issued c.session s')

/-- The calls once the call `n` has done this. -/
def take (c : Calls ε) (n : Nat) (step : HostM State (Progress ε)) : Calls ε :=
  c.put n (step.run c.session).1 (step.run c.session).2

/-- What may happen next, where the call `n` is to carry out the operation `ops n`: a
call is polled or dropped, be it as a whole or a step of it, or others do something
that neither polls nor frees a task. -/
inductive Next (ops : Nat → Operation State ε) : Calls ε → Calls ε → Prop where
  | poll {c : Calls ε} {n : Nat} {call : Call ε} (fuel : Nat) (hn : c.progress n = .stands call) :
      Next ops c (c.take n (.stands <$> call.poll machine (ops n) n fuel))
  | drop {c : Calls ε} {n : Nat} {call : Call ε} (hn : c.progress n = .stands call) :
      Next ops c (c.take n (.stands <$> call.drop machine))
  | step (c : Calls ε) (n : Nat) : Next ops c (c.take n ((c.progress n).step (ops n) n))
  | leave {c : Calls ε} {n : Nat} {call : Call ε} (hn : c.progress n = .stands call) :
      Next ops c (c.take n (Progress.leave call))
  | others (c : Calls ε) {op : Task.Operation} (hop : op.Spares) :
      Next ops c { c with
        session := ((HostM.enter fun core => core.onTasks (·.perform op)).run c.session).2 }

/-- What may come of calls that have not been polled yet. -/
abbrev Reaches (ops : Nat → Operation State ε) (c : Calls ε) : Prop :=
  Relation.ReflTransGen (Next ops) {} c

/-- The poll is the last one that the call `n` made of its task. -/
def Last (c : Calls ε) (n id : Nat) : Prop :=
  id ∈ c.polls n ∧ ∃ task, (c.progress n).task? = some task ∧
    c.session.trace.lastPoll? task = some id

/-- No poll has lapsed, each channel is kept for a call that waits for it, and each mark
for a call that is being dropped. -/
structure Invariant (c : Calls ε) : Prop where
  tidy : c.session.Tidy
  unlapsed : ∀ id, ∃ stage, stage ≠ .lapsed ∧ c.session.Stands id stage
  handles : ∀ n task, (c.progress n).task? = some task → task < c.session.core.tasks.nextHandle
  distinct : ∀ n m task, (c.progress n).task? = some task → (c.progress m).task? = some task →
    n = m
  channels : ∀ id, (c.session.wakes.view id).1.isSome ↔ ∃ n, (c.progress n).waits? = some id
  waits : ∀ n id, (c.progress n).waits? = some id → c.Last n id
  marks : ∀ id ∈ c.session.wakes.abandoned, ∃ n, (c.progress n).isLeaving ∧ c.Last n id
  polls : ∀ n, ∀ id ∈ c.polls n, id < c.session.wakes.nextId ∧ ∀ m, id ∈ c.polls m → m = n
  polled : ∀ id ∈ c.session.trace.polledIds, ∃ n, id ∈ c.polls n

variable {c : Calls ε} {s' : Session State} {op : Task.Operation} {n id : Nat}

/-- What a task owes is owed to its call, which waits for it or is being dropped. -/
theorem Invariant.holder (hc : c.Invariant) {task : Nat} (h : c.session.Stands id (.owed task)) :
    ∃ n, ((c.progress n).waits? = some id ∨ (c.progress n).isLeaving) ∧
      (c.progress n).task? = some task := by
  have hlast : ∀ t, c.session.trace.lastPoll? t = some id ↔ t = task := h.last
  have htask {n : Nat} (h : c.Last n id) : (c.progress n).task? = some task := by
    obtain ⟨_, t, ht, hpoll⟩ := h
    rw [ht, (hlast t).1 hpoll]
  obtain ⟨call, suspended, hkept⟩ | hkept := h.kept
  · obtain ⟨n, hn⟩ := (hc.channels id).1 (by rw [hkept]; rfl)
    exact ⟨n, .inl hn, htask (hc.waits n id hn)⟩
  · obtain ⟨n, hn, hpoll⟩ := hc.marks id (of_decide_eq_true (Prod.mk.inj hkept).2)
    exact ⟨n, .inr hn, htask hpoll⟩

/-- Whether the operation leaves alone the tasks of calls that wait or are being dropped. -/
def Allows (c : Calls ε) (op : Task.Operation) : Prop :=
  ∀ n task, ((c.progress n).waits?.isSome ∨ (c.progress n).isLeaving) →
    (c.progress n).task? = some task → ¬ op.Supersedes task

theorem Last.undergoes (h : c.Last n id) (hu : c.session.Undergoes s' op) (hop : c.Allows op)
    (hn : (c.progress n).waits?.isSome ∨ (c.progress n).isLeaving) :
    Last { c with session := s' } n id := by
  obtain ⟨hmem, task, htask, hlast⟩ := h
  refine ⟨hmem, task, htask, ?_⟩
  rw [hu.lastPoll?, Task.Operation.follow_of_not_supersedes (hop n task hn htask), hlast]

theorem Invariant.unlapsed_undergoes (hc : c.Invariant) (hu : c.session.Undergoes s' op)
    (hallows : c.Allows op) (hop : ∀ handle, op ≠ .poll handle id) :
    ∃ stage, stage ≠ .lapsed ∧ s'.Stands id stage := by
  obtain ⟨stage, hne, hstage⟩ := hc.unlapsed id
  obtain ⟨stage', hstage', hlapsed⟩ := hstage.undergoes hc.tidy.sound hu hop
  refine ⟨stage', fun heq => ?_, hstage'⟩
  obtain hold | ⟨task, rfl, hsup⟩ := hlapsed heq
  · exact hne hold
  · obtain ⟨n, hn, htask⟩ := hc.holder hstage
    refine hallows n task ?_ htask hsup
    obtain hn | hn := hn
    · exact .inl (by rw [hn]; rfl)
    · exact .inr hn

/-- An operation that does not poll keeps the invariant. -/
theorem Invariant.undergoes (hc : c.Invariant) (hu : c.session.Undergoes s' op)
    (hop : op.polledIds = []) (hallows : c.Allows op) : Invariant { c with session := s' } := by
  have hpolls (id handle : Nat) : op ≠ .poll handle id := by
    rintro rfl
    cases hop
  have hids : s'.wakes.nextId = c.session.wakes.nextId := by rw [hu.ids, hop, List.length_nil]; rfl
  refine ⟨hc.tidy.undergoes hu fun handle id heq => absurd heq (hpolls id handle), fun id => ?_,
    fun n task hn => ?_, hc.distinct, fun id => ?_, fun n id hn => ?_, fun id hid => ?_,
    fun n id hid => ?_, fun id hid => ?_⟩
  · exact hc.unlapsed_undergoes hu hallows (hpolls id)
  · exact Nat.lt_of_lt_of_le (hc.handles n task hn) hu.nextHandle_le
  · rw [hu.isSome_view (hpolls id)]
    exact hc.channels id
  · exact (hc.waits n id hn).undergoes hu hallows (.inl (by rw [hn]; rfl))
  · obtain ⟨n, hn, hlast⟩ := hc.marks id (hu.of_mem_abandoned (hpolls id) hid)
    exact ⟨n, hn, hlast.undergoes hu hallows (.inr hn)⟩
  · rw [hids]
    exact hc.polls n id hid
  · rw [hu.polledIds, hop, List.append_nil] at hid
    exact hc.polled id hid

theorem mem_issued {s s' : Session State} :
    id ∈ issued s s' ↔ s.wakes.nextId ≤ id ∧ id < s'.wakes.nextId := by
  rw [issued, List.mem_range'_1]
  omega

theorem progress_put_self {p : Progress ε} : (c.put n p s').progress n = p := by
  simp only [put, Function.update_self]

theorem progress_put_of_ne {p : Progress ε} {m : Nat} (hm : m ≠ n) :
    (c.put n p s').progress m = c.progress m := by
  simp only [put, Function.update_of_ne hm]

theorem mem_polls_put {p : Progress ε} {m : Nat} : id ∈ (c.put n p s').polls m ↔
    id ∈ c.polls m ∨ m = n ∧ id ∈ issued c.session s' := by
  by_cases hm : m = n
  · subst hm
    simp [put]
  · simp [put, hm]

/-- What the other calls hold they keep as the call `n` gets further. -/
theorem Last.put {p : Progress ε} {m : Nat} (h : c.Last m id) (hm : m ≠ n)
    (hlast : ∀ task, (c.progress m).task? = some task →
      s'.trace.lastPoll? task = c.session.trace.lastPoll? task) : (c.put n p s').Last m id := by
  obtain ⟨hmem, task, htask, hpoll⟩ := h
  refine ⟨mem_polls_put.2 (.inl hmem), task, ?_, (hlast task htask).trans hpoll⟩
  rw [progress_put_of_ne hm, htask]

/-- What is to be shown of a call that gets as far as `p`. -/
structure Gets (c : Calls ε) (n : Nat) (p : Progress ε) (s' : Session State) : Prop where
  tidy : s'.Tidy
  unlapsed : ∀ id, ∃ stage, stage ≠ .lapsed ∧ s'.Stands id stage
  handles : c.session.core.tasks.nextHandle ≤ s'.core.tasks.nextHandle
  ids : c.session.wakes.nextId ≤ s'.wakes.nextId
  task : ∀ task, p.task? = some task → (c.progress n).task? = some task ∨
    task < s'.core.tasks.nextHandle ∧ ∀ m, (c.progress m).task? ≠ some task
  last : ∀ m task, m ≠ n → (c.progress m).task? = some task →
    s'.trace.lastPoll? task = c.session.trace.lastPoll? task
  channels : ∀ id, (s'.wakes.view id).1.isSome ↔ p.waits? = some id ∨
    (c.session.wakes.view id).1.isSome ∧ (c.progress n).waits? ≠ some id
  waits : ∀ id, p.waits? = some id → (c.put n p s').Last n id
  marks : ∀ id ∈ s'.wakes.abandoned, p.isLeaving ∧ (c.put n p s').Last n id ∨
    id ∈ c.session.wakes.abandoned ∧ ¬ ((c.progress n).isLeaving ∧ c.Last n id)
  polled : ∀ id ∈ s'.trace.polledIds, id ∈ c.session.trace.polledIds ∨ id ∈ issued c.session s'

theorem Invariant.put {p : Progress ε} (hc : c.Invariant) (h : c.Gets n p s') :
    (c.put n p s').Invariant := by
  have hself : (c.put n p s').progress n = p := progress_put_self
  have hother {m : Nat} (hm : m ≠ n) : (c.put n p s').progress m = c.progress m :=
    progress_put_of_ne hm
  -- The task of the call is its own still, or new.
  have htask {m task : Nat} (hm : m ≠ n) (hn : p.task? = some task) :
      (c.progress m).task? ≠ some task := by
    intro htask
    obtain hold | ⟨_, hnew⟩ := h.task task hn
    · exact hm (hc.distinct m n task htask hold)
    · exact hnew m htask
  refine ⟨h.tidy, h.unlapsed, fun m task hm => ?_, fun m m' task hm hm' => ?_, fun id => ?_,
    fun m id hm => ?_, fun id hid => ?_, fun m id hid => ?_, fun id hid => ?_⟩
  · by_cases hmn : m = n
    · subst hmn
      rw [hself] at hm
      obtain hold | ⟨hlt, _⟩ := h.task task hm
      · exact Nat.lt_of_lt_of_le (hc.handles m task hold) h.handles
      · exact hlt
    · rw [hother hmn] at hm
      exact Nat.lt_of_lt_of_le (hc.handles m task hm) h.handles
  · by_cases hmn : m = n <;> by_cases hmn' : m' = n
    · rw [hmn, hmn']
    · subst hmn
      rw [hself] at hm
      rw [hother hmn'] at hm'
      exact absurd hm' (htask hmn' hm)
    · subst hmn'
      rw [hself] at hm'
      rw [hother hmn] at hm
      exact absurd hm (htask hmn hm')
    · rw [hother hmn] at hm
      rw [hother hmn'] at hm'
      exact hc.distinct m m' task hm hm'
  · rw [show (c.put n p s').session = s' from rfl, h.channels id]
    constructor
    · rintro (hn | ⟨hsome, hn⟩)
      · exact ⟨n, by rw [hself, hn]⟩
      · obtain ⟨m, hm⟩ := (hc.channels id).1 hsome
        have hmn : m ≠ n := by
          rintro rfl
          exact hn hm
        exact ⟨m, by rw [hother hmn, hm]⟩
    · rintro ⟨m, hm⟩
      by_cases hmn : m = n
      · subst hmn
        exact .inl (hself ▸ hm)
      · rw [hother hmn] at hm
        refine .inr ⟨(hc.channels id).2 ⟨m, hm⟩, fun hn => ?_⟩
        exact hmn ((hc.polls n id (hc.waits n id hn).1).2 m (hc.waits m id hm).1)
  · by_cases hmn : m = n
    · subst hmn
      exact h.waits id (hself ▸ hm)
    · rw [hother hmn] at hm
      exact (hc.waits m id hm).put hmn fun task => h.last m task hmn
  · obtain ⟨hn, hlast⟩ | ⟨hmark, hn⟩ := h.marks id hid
    · exact ⟨n, by rw [hself, hn], hlast⟩
    · obtain ⟨m, hm, hlast⟩ := hc.marks id hmark
      have hmn : m ≠ n := by
        rintro rfl
        exact hn ⟨hm, hlast⟩
      exact ⟨m, by rw [hother hmn, hm], hlast.put hmn fun task => h.last m task hmn⟩
  · rw [mem_polls_put] at hid
    obtain hid | ⟨rfl, hid⟩ := hid
    · refine ⟨Nat.lt_of_lt_of_le (hc.polls m id hid).1 h.ids, fun m' hid' => ?_⟩
      obtain hid' | ⟨_, hid'⟩ := mem_polls_put.1 hid'
      · exact (hc.polls m id hid).2 m' hid'
      · exact absurd (hc.polls m id hid).1 (Nat.not_lt.2 (mem_issued.1 hid').1)
    · refine ⟨(mem_issued.1 hid).2, fun m' hid' => ?_⟩
      obtain hid' | ⟨heq, _⟩ := mem_polls_put.1 hid'
      · exact absurd (hc.polls m' id hid').1 (Nat.not_lt.2 (mem_issued.1 hid).1)
      · exact heq
  · obtain hold | hnew := h.polled id hid
    · obtain ⟨m, hm⟩ := hc.polled id hold
      exact ⟨m, mem_polls_put.2 (.inl hm)⟩
    · exact ⟨n, mem_polls_put.2 (.inr ⟨rfl, hnew⟩)⟩

/-! ## The steps of one call -/

/-- A call that waits for nothing gets further without entering the core. -/
theorem Invariant.turn (hc : c.Invariant) {p : Progress ε} (hn : (c.progress n).waits? = none)
    (hp : p.waits? = none)
    (htask : ∀ task, p.task? = some task → (c.progress n).task? = some task ∨
      task < c.session.core.tasks.nextHandle ∧ ∀ m, (c.progress m).task? ≠ some task)
    (hmarks : (c.progress n).isLeaving → ∀ id ∈ c.session.wakes.abandoned, ¬ c.Last n id) :
    (c.put n p c.session).Invariant := by
  refine hc.put ⟨hc.tidy, hc.unlapsed, le_rfl, le_rfl, htask, fun _ _ _ _ => rfl, fun id => ?_,
    fun id heq => ?_, fun id hid => ?_, fun _ => .inl⟩
  · simp [hn, hp]
  · rw [hp] at heq
    cases heq
  · exact .inr ⟨hid, fun ⟨hleaving, hlast⟩ => hmarks hleaving id hid hlast⟩

/-- If no id is issued, the call may as well get further once the session has. -/
theorem put_eq (hids : s'.wakes.nextId = c.session.wakes.nextId) (p : Progress ε) :
    c.put n p s' = Calls.put { c with session := s' } n p s' := by
  simp only [put, issued, hids, Nat.sub_self]

theorem allows_of_spares (hop : op.Spares) : c.Allows op :=
  fun _ task _ _ => hop.not_supersedes task

/-- A call that waits for nothing and is not being dropped leaves the others their tasks. -/
theorem Invariant.allows (hc : c.Invariant) {task : Nat} (htask : (c.progress n).task? = some task)
    (hwaits : (c.progress n).waits? = none) (hleaving : (c.progress n).isLeaving = false)
    (hop : ∀ t, op.Supersedes t → t = task) : c.Allows op := by
  intro m t hm ht hsup
  obtain rfl := hop t hsup
  obtain rfl := hc.distinct m n t ht htask
  simp [hwaits, hleaving] at hm

/-- A call polls its task, and waits for the poll unless that has ended it. -/
theorem Invariant.put_polled (hc : c.Invariant) {task : Nat} {report : PollReport} {drive : Drive}
    (hn : c.progress n = .stands (.driving task (.polling report)))
    (hu : c.session.Undergoes s' (.poll task c.session.wakes.nextId))
    (hstage : ∃ stage, stage ≠ .lapsed ∧ s'.Stands c.session.wakes.nextId stage)
    (hmark : c.session.wakes.nextId ∉ s'.wakes.abandoned)
    (hwaits : ∀ id, (Progress.stands (.driving task drive) : Progress ε).waits? = some id ↔
      id = c.session.wakes.nextId ∧ (s'.wakes.view id).1.isSome) :
    (c.put n (.stands (.driving task drive)) s').Invariant := by
  have htask : (c.progress n).task? = some task := by rw [hn]; rfl
  have hnone : (c.progress n).waits? = none := by rw [hn]; rfl
  have hstays : (c.progress n).isLeaving = false := by rw [hn]; rfl
  have hallows : c.Allows (.poll task c.session.wakes.nextId) :=
    hc.allows htask hnone hstays fun t hsup => hsup.symm
  have hpoll {id : Nat} (hid : id ≠ c.session.wakes.nextId) (handle : Nat) :
      Task.Operation.poll task c.session.wakes.nextId ≠ .poll handle id :=
    fun heq => hid (Task.Operation.poll.inj heq).2.symm
  have hissued : c.session.wakes.nextId ∈ issued c.session s' := by
    rw [mem_issued, hu.ids]
    exact ⟨le_rfl, Nat.lt_succ_self _⟩
  refine hc.put ⟨hc.tidy.undergoes hu fun handle id heq => ?_, fun id => ?_, hu.nextHandle_le,
    hu.ids ▸ Nat.le_add_right _ _, fun t ht => .inl (htask.trans ht), fun m t hm ht => ?_,
    fun id => ?_, fun id hid => ?_, fun id hid => ?_, fun id hid => ?_⟩
  · obtain ⟨_, rfl⟩ := Task.Operation.poll.inj heq
    obtain ⟨stage, _, hstage⟩ := hstage
    exact ⟨stage, hstage⟩
  · by_cases hid : id = c.session.wakes.nextId
    · exact hid ▸ hstage
    · exact hc.unlapsed_undergoes hu hallows (hpoll hid)
  · have hne : ¬ (Task.Operation.poll task c.session.wakes.nextId).Supersedes t := by
      rintro rfl
      exact hm (hc.distinct m n task ht htask)
    rw [hu.lastPoll?, Task.Operation.follow_of_not_supersedes hne]
  · rw [hwaits, hnone]
    by_cases hid : id = c.session.wakes.nextId
    · have hclosed : (c.session.wakes.view id).1.isSome = false := by
        obtain ⟨stage, _, hstage⟩ := hc.unlapsed id
        obtain rfl := hstage.issued.1 hid.ge
        rw [show c.session.wakes.view id = (none, false) from hstage.kept]
        rfl
      simp [hid, hid ▸ hclosed]
    · simp [hid, hu.isSome_view (hpoll hid)]
  · obtain ⟨rfl, _⟩ := (hwaits id).1 hid
    refine ⟨mem_polls_put.2 (.inr ⟨rfl, hissued⟩), task, by rw [progress_put_self]; rfl, ?_⟩
    exact (hu.lastPoll? task).trans (if_pos rfl)
  · have hne : id ≠ c.session.wakes.nextId := fun heq => hmark (heq ▸ hid)
    refine .inr ⟨hu.of_mem_abandoned (hpoll hne) hid, fun ⟨hleaving, _⟩ => ?_⟩
    simp [hstays] at hleaving
  · rw [hu.polledIds, List.mem_append] at hid
    obtain hold | hnew := hid
    · exact .inl hold
    · exact .inr (List.mem_singleton.1 hnew ▸ hissued)

/-- A call closes the channel of the poll that it waits for, if its continuation has
come or the call is being dropped. -/
theorem Invariant.put_closed (hc : c.Invariant) {p : Progress ε}
    (hn : (c.progress n).waits? = some id) (hp : p.waits? = none)
    (htask : p.task? = (c.progress n).task?)
    (hdone : p.isLeaving ∨ ∃ result, c.session.wakes.view id = (some (.delivered result), false)) :
    (c.put n p (Drive.closed id true c.session)).Invariant := by
  have hview (i : Nat) := c.session.wakes.view_unregister id i true
  have hstays := Progress.isLeaving_of_waits? hn
  refine hc.put ⟨hc.tidy.close id, fun i => ?_, le_rfl, le_rfl, fun t ht => .inl (htask ▸ ht),
    fun _ _ _ _ => rfl, fun i => ?_, fun i hi => ?_, fun i hi => ?_, fun _ => .inl⟩
  · obtain ⟨stage, hne, hstage⟩ := hc.unlapsed i
    obtain ⟨stage', hstage', rfl | rfl⟩ := hstage.close id
    · exact ⟨_, (fun heq => by cases heq), hstage'⟩
    · exact ⟨_, hne, hstage'⟩
  · rw [show (Drive.closed id true c.session).wakes.view i = _ from hview i, hp, hn]
    by_cases hi : id = i
    · simp [hi]
    · simp [hi]
  · rw [hp] at hi
    cases hi
  · have hmark : ((c.session.wakes.unregister id true).view i).2 = true := decide_eq_true hi
    rw [hview i] at hmark
    by_cases hid : id = i
    · subst hid
      rw [if_pos rfl] at hmark
      obtain hleaving | ⟨result, hdelivered⟩ := hdone
      · obtain ⟨hmem, task, hown, hlast⟩ := hc.waits n id hn
        refine .inl ⟨hleaving, mem_polls_put.2 (.inl hmem), task, ?_, hlast⟩
        rw [progress_put_self, htask, hown]
      · rw [WakeRegistry.isPending_of_view hdelivered, hdelivered] at hmark
        cases hmark
    · rw [if_neg hid] at hmark
      exact .inr ⟨of_decide_eq_true hmark, fun ⟨hleaving, _⟩ => by simp [hstays] at hleaving⟩

/-- A call goes on waiting. -/
theorem Invariant.put_suspended (hc : c.Invariant) (hn : (c.progress n).waits? = some id) :
    (c.put n (c.progress n) { c.session with wakes := c.session.wakes.suspend id }).Invariant := by
  have hids := WakeRegistry.nextId_suspend c.session.wakes id
  have hkeeps (i : Nat) : (((c.session.wakes.suspend id).view i).1.isSome =
      (c.session.wakes.view i).1.isSome) ∧
      ((c.session.wakes.suspend id).view i).2 = (c.session.wakes.view i).2 := by
    obtain hsame | ⟨call, suspended, hbefore, hafter⟩ := c.session.wakes.view_suspend id i
    · rw [hsame]
      exact ⟨rfl, rfl⟩
    · rw [hafter, hbefore]
      exact ⟨rfl, rfl⟩
  refine hc.put ⟨hc.tidy.suspend id, fun i => ?_, le_rfl, hids.ge, fun _ => .inl,
    fun _ _ _ _ => rfl, fun i => ?_, fun i hi => ?_, fun i hi => ?_, fun _ => .inl⟩
  · obtain ⟨stage, hne, hstage⟩ := hc.unlapsed i
    exact ⟨stage, hne, hstage.suspend id⟩
  · rw [show Session.wakes { c.session with wakes := c.session.wakes.suspend id } =
      c.session.wakes.suspend id from rfl, (hkeeps i).1]
    by_cases hi : (c.progress n).waits? = some i
    · exact iff_of_true ((hc.channels i).2 ⟨n, hi⟩) (.inl hi)
    · simp [hi]
  · obtain ⟨hmem, task, hown, hlast⟩ := hc.waits n i hi
    exact ⟨mem_polls_put.2 (.inl hmem), task, by rw [progress_put_self, hown], hlast⟩
  · have hmark : ((c.session.wakes.suspend id).view i).2 = true := decide_eq_true hi
    rw [(hkeeps i).2] at hmark
    refine .inr ⟨of_decide_eq_true hmark, fun ⟨hleaving, _⟩ => ?_⟩
    simp [Progress.isLeaving_of_waits? hn] at hleaving

variable {start : Operation State ε}

theorem take_eq {m : HostM State (Progress ε)} {p : Progress ε}
    (h : m.run c.session = (p, s')) : c.take n m = c.put n p s' := by
  rw [take, h]

/-- What is left to show of a step: the invariant, and that no id is taken back. -/
def Keeps (c c' : Calls ε) : Prop :=
  c'.Invariant ∧ c.session.wakes.nextId ≤ c'.session.wakes.nextId

/-- A call enters the core with an operation that does not poll, and gets further. -/
theorem Invariant.keeps_undergoes (hc : c.Invariant) {m : HostM State (Progress ε)}
    {p : Progress ε} (hrun : m.run c.session = (p, s')) (hu : c.session.Undergoes s' op)
    (hop : op.polledIds = []) (hallows : c.Allows op) (hn : (c.progress n).waits? = none)
    (hp : p.waits? = none) (htask : ∀ task, p.task? = some task → (c.progress n).task? = some task)
    (hmarks : (c.progress n).isLeaving →
      ∀ id ∈ s'.wakes.abandoned, ¬ Last { c with session := s' } n id) :
    c.Keeps (c.take n m) := by
  have hids : s'.wakes.nextId = c.session.wakes.nextId := by rw [hu.ids, hop]; rfl
  rw [take_eq hrun, put_eq hids]
  refine ⟨?_, hids.ge⟩
  exact (hc.undergoes hu hop hallows).turn hn hp (fun task heq => .inl (htask task heq)) hmarks

/-- A call that waits for nothing and is not being dropped gets further by itself. -/
theorem Invariant.keeps_pure (hc : c.Invariant) {p : Progress ε}
    (hn : (c.progress n).waits? = none) (hstays : (c.progress n).isLeaving = false)
    (hp : p.waits? = none)
    (htask : ∀ task, p.task? = some task → (c.progress n).task? = some task) :
    c.Keeps (c.take n (pure p)) := by
  refine ⟨?_, le_rfl⟩
  refine hc.turn hn hp (fun task heq => .inl (htask task heq)) fun hleaving => ?_
  simp [hstays] at hleaving

/-- Operations that neither poll nor free a task keep the invariant. -/
theorem Invariant.leads (hc : c.Invariant) (h : c.session.Leads s') :
    Invariant { c with session := s' } ∧ s'.wakes.nextId = c.session.wakes.nextId ∧
      c.session.core.tasks.nextHandle ≤ s'.core.tasks.nextHandle := by
  induction h with
  | refl => exact ⟨hc, rfl, le_rfl⟩
  | tail _ hstep ih =>
    obtain ⟨hc', hids, hhandles⟩ := ih
    obtain ⟨_, op, hop, hu⟩ := hstep
    refine ⟨hc'.undergoes hu hop.polledIds (allows_of_spares hop), ?_,
      hhandles.trans hu.nextHandle_le⟩
    rw [hu.ids, hop.polledIds, hids, List.length_nil]
    rfl

/-- A call starts its task, which is none that another call has. -/
theorem Invariant.keeps_start (hc : c.Invariant) (hstart : start.Starts)
    (hn : c.progress n = .stands .unstarted) :
    c.Keeps (c.take n ((Progress.stands .unstarted).step start n)) := by
  obtain ⟨answer, s', hrun, hleads, _, hnew⟩ := hc.tidy.start hstart
  obtain ⟨hc', hids, _⟩ := hc.leads hleads
  have hnone : (c.progress n).waits? = none := by rw [hn]; rfl
  have hstays : (c.progress n).isLeaving = false := by rw [hn]; rfl
  have hfirst (p : Progress ε) (hp : p.waits? = none)
      (htask : ∀ task, p.task? = some task → task < s'.core.tasks.nextHandle ∧
        ∀ m, (c.progress m).task? ≠ some task)
      (hstep : ((Progress.stands .unstarted).step start n).run c.session = (p, s')) :
      c.Keeps (c.take n ((Progress.stands .unstarted).step start n)) := by
    rw [take_eq hstep, put_eq hids]
    refine ⟨?_, hids.ge⟩
    exact hc'.turn hnone hp (fun task heq => .inr (htask task heq))
      fun hleaving => by simp [hstays] at hleaving
  cases answer with
  | error error =>
    refine hfirst (.stands (.ended (.error error))) rfl (fun task heq => by cases heq) ?_
    simp only [Progress.step, StateT.run_bind, hrun]
    rfl
  | ok task =>
    refine hfirst (.stands (.driving task (.polling {}))) rfl (fun t heq => ?_) ?_
    · obtain rfl := Option.some.inj heq
      obtain ⟨hle, hlt⟩ := hnew task rfl
      exact ⟨hlt, fun m hm => absurd (hc.handles m task hm) (Nat.not_lt.2 hle)⟩
    · simp only [Progress.step, StateT.run_bind, hrun]
      rfl

/-- A call polls its task. -/
theorem Invariant.keeps_poll (hc : c.Invariant) {task : Nat} {report : PollReport}
    (hn : c.progress n = .stands (.driving task (.polling report))) :
    c.Keeps (c.take n ((Progress.stands (.driving task (.polling report))).step start n)) := by
  obtain ⟨report', s', hu, hpolled⟩ := Drive.poll_undergoes hc.tidy n task report
  have hstep {drive : Drive}
      (hrun : (Drive.poll machine n task report).run c.session = (drive, s')) :
      ((Progress.stands (.driving task (.polling report))).step start n).run c.session =
        (.stands (.driving task drive), s') := by
    simp only [Progress.step, StateT.run_bind, hrun]
    rfl
  have hids : c.session.wakes.nextId ≤ s'.wakes.nextId := hu.ids ▸ Nat.le_add_right _ _
  obtain ⟨hrun, hclosed⟩ | ⟨hrun, hsome, hown⟩ := hpolled
  · rw [take_eq (hstep hrun)]
    refine ⟨hc.put_polled hn hu ⟨_, (fun heq => by cases heq), hclosed⟩ ?_ fun id => ?_, hids⟩
    · exact hclosed.not_abandoned (fun heq => by cases heq) fun task heq => by cases heq
    · refine iff_of_false (fun heq => by cases heq) ?_
      rintro ⟨rfl, hsome⟩
      rw [show s'.wakes.view _ = (none, false) from hclosed.kept] at hsome
      cases hsome
  · rw [take_eq (hstep hrun)]
    have hstage : ∃ stage, stage ≠ .lapsed ∧ s'.Stands c.session.wakes.nextId stage := by
      obtain howed | ⟨result, hdelivered⟩ := hown
      · exact ⟨_, (fun heq => by cases heq), howed⟩
      · exact ⟨_, (fun heq => by cases heq), hdelivered⟩
    refine ⟨hc.put_polled hn hu hstage ?_ fun id => ?_, hids⟩
    · intro hmark
      obtain ⟨stage, _, hstage⟩ := hstage
      rw [(hstage.of_abandoned hmark).1] at hsome
      cases hsome
    · constructor
      · intro heq
        obtain rfl := Option.some.inj heq
        exact ⟨rfl, hsome⟩
      · rintro ⟨rfl, _⟩
        rfl

/-- A call takes the result of its poll, if that has come. -/
theorem Invariant.keeps_receive (hc : c.Invariant) {task : Nat} {report : PollReport}
    (hn : c.progress n = .stands (.driving task (.waiting id report))) :
    c.Keeps (c.take n ((Progress.stands (.driving task (.waiting id report))).step start n)) := by
  have hwaits : (c.progress n).waits? = some id := by rw [hn]; rfl
  have hstep : ((Progress.stands (.driving task (.waiting id report))).step start n).run c.session =
      (.stands (.driving task (Drive.received id report (c.session.wakes.received? id))),
        if c.session.wakes.received? id = none then
          { c.session with wakes := c.session.wakes.suspend id }
        else Drive.closed id true c.session) := by
    simp only [Progress.step, StateT.run_bind, Drive.receive_eq]
    rfl
  rw [take_eq hstep]
  cases hreceived : c.session.wakes.received? id with
  | none =>
    refine ⟨?_, (WakeRegistry.nextId_suspend c.session.wakes id).ge⟩
    have hsuspended := hc.put_suspended hwaits
    rwa [hn] at hsuspended
  | some result =>
    have hdelivered : c.session.wakes.view id = (some (.delivered result), false) := by
      have hmark : id ∉ c.session.wakes.abandoned := by
        intro hmark
        obtain ⟨stage, _, hstage⟩ := hc.unlapsed id
        have hnone : c.session.wakes.channels.get? id = none :=
          congrArg Prod.fst (hstage.of_abandoned hmark).1
        simp [WakeRegistry.received?, hnone] at hreceived
      have hchannel : c.session.wakes.channels.get? id = some (.delivered result) :=
        WakeRegistry.get?_of_received? hreceived
      simp [WakeRegistry.view, hchannel, hmark]
    have hnext : (Progress.stands (.driving task (Drive.received id report (some result))) :
        Progress ε).waits? = none := by
      unfold Drive.received
      dsimp only
      split <;> rfl
    refine ⟨hc.put_closed hwaits hnext (by rw [hn]; rfl) (.inr ⟨result, hdelivered⟩), le_rfl⟩

/-- Cancelling its task brings the continuation of the last poll of a call. -/
theorem Invariant.unmarked_cancel (hc : c.Invariant) {task : Nat}
    (htask : (c.progress n).task? = some task) (hu : c.session.Undergoes s' (.cancel task)) :
    ∀ id ∈ s'.wakes.abandoned, ¬ Last { c with session := s' } n id := by
  rintro id hmark ⟨_, t, ht, hlast⟩
  obtain rfl := Option.some.inj (htask.symm.trans ht)
  obtain ⟨stage, hne, hstage⟩ := hc.unlapsed id
  have hbefore := hu.of_mem_abandoned (fun handle heq => by cases heq) hmark
  obtain ⟨_, rfl | ⟨owner, rfl⟩⟩ := hstage.of_abandoned hbefore
  · exact hne rfl
  · obtain rfl := (hstage.last task).1 ((hu.lastPoll? task).symm.trans hlast)
    exact hstage.cancel hc.tidy.sound hu hmark

/-- The steps of calls keep the invariant. -/
theorem Invariant.keeps_step (hc : c.Invariant) (hstart : start.Starts) (n : Nat) :
    c.Keeps (c.take n ((c.progress n).step start n)) := by
  cases hn : c.progress n with
  | stands call =>
    have hstays : (c.progress n).isLeaving = false := by rw [hn]; rfl
    cases call with
    | unstarted => exact hc.keeps_start hstart hn
    | driving task drive =>
      cases drive with
      | polling report => exact hc.keeps_poll hn
      | waiting id report => exact hc.keeps_receive hn
      | finished report =>
        have hu := collect_undergoes hc.tidy start.decode start.flavour task
        refine hc.keeps_undergoes rfl hu rfl (allows_of_spares trivial) (by rw [hn]; rfl) rfl ?_ ?_
        · rw [hn]
          exact fun _ heq => heq
        · simp [hstays]
      | failed fault =>
        refine hc.keeps_pure (by rw [hn]; rfl) hstays rfl ?_
        rw [hn]
        exact fun _ heq => heq
    | ended result => exact hc.keeps_pure (by rw [hn]; rfl) hstays rfl fun _ heq => by cases heq
    | dropped => exact hc.keeps_pure (by rw [hn]; rfl) hstays rfl fun _ heq => by cases heq
  | leaving task outcome =>
    have htask : (c.progress n).task? = some task := by rw [hn]; rfl
    obtain ⟨s', hrun, hu⟩ := cancelTask_undergoes hc.tidy task
    have hstep : ((Progress.leaving task outcome).step start n).run c.session =
        (.freeing task outcome, s') := by
      simp only [Progress.step, StateT.run_bind, hrun]
      rfl
    refine hc.keeps_undergoes hstep hu rfl (allows_of_spares trivial) (by rw [hn]; rfl) rfl ?_ ?_
    · rw [hn]
      exact fun _ heq => heq
    · exact fun _ => hc.unmarked_cancel htask hu
  | freeing task outcome =>
    have htask : (c.progress n).task? = some task := by rw [hn]; rfl
    have hwaits : (c.progress n).waits? = none := by rw [hn]; rfl
    have hstays : (c.progress n).isLeaving = false := by rw [hn]; rfl
    obtain ⟨s', hrun, hu⟩ := freeTask_undergoes hc.tidy task
    have hstep : ((Progress.freeing task outcome).step start n).run c.session =
        (.stands (Progress.ofOutcome outcome), s') := by
      simp only [Progress.step, StateT.run_bind, hrun]
      rfl
    refine hc.keeps_undergoes hstep hu rfl (hc.allows htask hwaits hstays fun t hsup => hsup.symm)
      hwaits ?_ ?_ ?_
    · cases outcome <;> rfl
    · cases outcome <;> exact fun _ heq => by cases heq
    · simp [hstays]

/-- Leaving a call keeps the invariant. -/
theorem Invariant.keeps_leave (hc : c.Invariant) {call : Call ε}
    (hn : c.progress n = .stands call) : c.Keeps (c.take n (Progress.leave call)) := by
  have hstays : (c.progress n).isLeaving = false := by rw [hn]; rfl
  cases call with
  | unstarted => exact hc.keeps_pure (by rw [hn]; rfl) hstays rfl fun _ heq => by cases heq
  | driving task drive =>
    have htask (t : Nat) (heq : (Progress.leaving task none : Progress ε).task? = some t) :
        (c.progress n).task? = some t := by
      rw [hn]
      exact heq
    cases drive with
    | waiting id report =>
      have hwaits : (c.progress n).waits? = some id := by rw [hn]; rfl
      exact ⟨hc.put_closed hwaits rfl (by rw [hn]; rfl) (.inl rfl), le_rfl⟩
    | polling report => exact hc.keeps_pure (by rw [hn]; rfl) hstays rfl htask
    | finished report => exact hc.keeps_pure (by rw [hn]; rfl) hstays rfl htask
    | failed fault => exact hc.keeps_pure (by rw [hn]; rfl) hstays rfl htask
  | ended result => exact hc.keeps_pure (by rw [hn]; rfl) hstays rfl fun _ heq => by cases heq
  | dropped => exact hc.keeps_pure (by rw [hn]; rfl) hstays rfl fun _ heq => by cases heq

/-! ## What comes of calls -/

theorem put_put {p p' : Progress ε} {s'' : Session State}
    (hfirst : c.session.wakes.nextId ≤ s'.wakes.nextId)
    (hsecond : s'.wakes.nextId ≤ s''.wakes.nextId) :
    (c.put n p s').put n p' s'' = c.put n p' s'' := by
  have hissued : issued c.session s' ++ issued s' s'' = issued c.session s'' := by
    obtain ⟨made, hmade⟩ := Nat.exists_eq_add_of_le hfirst
    obtain ⟨more, hmore⟩ := Nat.exists_eq_add_of_le hsecond
    rw [issued, issued, issued, hmore, hmade, Nat.add_assoc, Nat.add_sub_cancel_left,
      Nat.add_sub_cancel_left, ← Nat.add_assoc, Nat.add_sub_cancel_left, List.range'_append_1]
  simp only [put, Function.update_idem, Function.update_self, List.append_assoc, hissued]

theorem put_self {p : Progress ε} (hn : c.progress n = p) : c.put n p c.session = c := by
  subst hn
  simp only [put, issued, Nat.sub_self, List.range'_zero, List.append_nil, Function.update_eq_self]

/-- Several steps of a call keep what one does. -/
theorem Keeps.take {p : Progress ε} {m : HostM State (Progress ε)} (h : c.Keeps (c.put n p s'))
    (hstep : (c.put n p s').Keeps ((c.put n p s').take n m)) :
    c.Keeps (c.put n (m.run s').1 (m.run s').2) := by
  obtain ⟨_, hfirst⟩ := h
  obtain ⟨hnext, hsecond⟩ := hstep
  have hput : (c.put n p s').take n m = c.put n (m.run s').1 (m.run s').2 := put_put hfirst hsecond
  exact ⟨hput ▸ hnext, hfirst.trans hsecond⟩

theorem Keeps.step {p : Progress ε} (h : c.Keeps (c.put n p s')) (hstart : start.Starts) :
    c.Keeps (c.put n ((p.step start n).run s').1 ((p.step start n).run s').2) := by
  have hstep := h.1.keeps_step hstart n
  rw [progress_put_self] at hstep
  exact h.take hstep

theorem Keeps.leave {call : Call ε} (h : c.Keeps (c.put n (.stands call) s')) :
    c.Keeps (c.put n ((Progress.leave call).run s').1 ((Progress.leave call).run s').2) :=
  h.take (h.1.keeps_leave progress_put_self)

variable {ops : Nat → Operation State ε}

theorem Invariant.next {c' : Calls ε} (hc : c.Invariant) (hops : ∀ n, (ops n).Starts)
    (h : Next ops c c') : c'.Invariant := by
  have hself {n : Nat} {p : Progress ε} (hn : c.progress n = p) :
      c.Keeps (c.put n p c.session) := by
    rw [put_self hn]
    exact ⟨hc, le_rfl⟩
  cases h with
  | @poll n call fuel hn =>
    exact (Progress.poll_keeps (P := fun p s' => c.Keeps (c.put n p s'))
      (fun p s' h => h.step (hops n)) fuel (hself hn)).1
  | @drop n call hn =>
    exact (Progress.drop_keeps (P := fun p s' => c.Keeps (c.put n p s'))
      (fun p s' h => h.step (hops n)) (fun call s' h => h.leave) (hself hn)).1
  | step n => exact (hc.keeps_step (hops n) n).1
  | leave hn => exact (hc.keeps_leave hn).1
  | others hop =>
    exact hc.undergoes (hc.tidy.enter_perform hop) hop.polledIds (allows_of_spares hop)

theorem invariant_initial : Invariant ({} : Calls ε) := by
  have htidy : ({ core := {} } : Session State).Tidy := Session.tidy_initial {} rfl
  refine ⟨htidy, fun id => ?_, fun n task hn => ?_, fun n m task hn => ?_, fun id => ?_,
    fun n id hn => ?_, fun id hid => ?_, fun n id hid => ?_, fun id hid => ?_⟩
  · obtain ⟨stage, hstage⟩ := htidy.stands id
    refine ⟨stage, ?_, hstage⟩
    rintro rfl
    obtain ⟨call, suspended, hkept⟩ | hkept := hstage.kept
    · cases (Prod.mk.inj hkept).1
    · cases (Prod.mk.inj hkept).2
  · cases hn
  · cases hn
  · exact iff_of_false (fun hsome => by cases hsome) fun ⟨n, hn⟩ => by cases hn
  · cases hn
  · cases hid
  · cases hid
  · cases hid

theorem Reaches.invariant (hops : ∀ n, (ops n).Starts) (h : Reaches ops c) : c.Invariant := by
  induction h with
  | refl => exact invariant_initial
  | tail _ hnext ih => exact ih.next hops hnext

/-- A call that is over has no channel and no mark left. -/
theorem Invariant.nothing_left (hc : c.Invariant) (hn : (c.progress n).task? = none)
    (hid : id ∈ c.polls n) :
    c.session.wakes.channels.get? id = none ∧ id ∉ c.session.wakes.abandoned := by
  have hlast (m : Nat) : ¬ c.Last m id := by
    rintro ⟨hmem, task, htask, _⟩
    obtain rfl := (hc.polls n id hid).2 m hmem
    rw [hn] at htask
    cases htask
  constructor
  · by_contra hchannel
    obtain ⟨m, hm⟩ := (hc.channels id).1 (Option.isSome_iff_ne_none.2 hchannel)
    exact hlast m (hc.waits m id hm)
  · intro hmark
    obtain ⟨m, _, hm⟩ := hc.marks id hmark
    exact hlast m hm

/-- Where continuations have gone: none has been invoked for the poll, or one, which
was delivered or cleared the mark. -/
theorem Invariant.firings (hc : c.Invariant) (id : Nat) :
    c.session.trace.firings id = [] ∨ ∃ result, c.session.trace.firings id = [result] ∧
      (c.session.wakes.channels.get? id = none ∨
        c.session.wakes.channels.get? id = some (.delivered result)) ∧
      id ∉ c.session.wakes.abandoned := by
  obtain ⟨stage, hstage⟩ := hc.tidy.stands id
  have hshown := hstage.shown
  have hkept := hstage.kept
  cases stage with
  | delivered result =>
    obtain ⟨hchannel, hmark⟩ := Prod.mk.inj hkept
    exact .inr ⟨result, hshown, .inr hchannel, of_decide_eq_false hmark⟩
  | closed =>
    obtain ⟨hchannel, hmark⟩ := Prod.mk.inj hkept
    cases hfirings : c.session.trace.firings id with
    | nil => exact .inl rfl
    | cons result rest =>
      have hrest : rest = [] := by
        have hlength : (c.session.trace.firings id).length ≤ 1 := hshown
        rw [hfirings] at hlength
        exact List.eq_nil_of_length_eq_zero (Nat.le_zero.1 (Nat.le_of_succ_le_succ hlength))
      exact .inr ⟨result, by rw [hrest], .inl hchannel, of_decide_eq_false hmark⟩
  | _ => exact .inl hshown

/-- Calls that alone poll and free tasks, any number of them and in any order, leave
nothing in the wake registry. Ids are not reused, and each is that of a poll of one
call. No poll has both a waiter and a mark. Each continuation has found the one or the
other of its poll, so none was taken for one of an unknown poll: none comes twice, and
one that has come is in the channel of its poll, if the call still waits for it, and has
left no mark. And once a call is over there is neither a channel nor a mark for any of
its polls. -/
theorem ids_settled (hops : ∀ n, (ops n).Starts) (h : Reaches ops c) :
    let s := c.session
    (s.trace.polledIds.Nodup ∧ ∀ id ∈ s.trace.polledIds, ∃! n, id ∈ c.polls n) ∧
      (∀ id, s.wakes.isPending id = true → id ∉ s.wakes.abandoned) ∧
      (∀ id, unknownPoll id ∉ s.trace) ∧
      (∀ id, s.trace.firings id = [] ∨ ∃ result, s.trace.firings id = [result] ∧
        (s.wakes.channels.get? id = none ∨
          s.wakes.channels.get? id = some (.delivered result)) ∧ id ∉ s.wakes.abandoned) ∧
      (∀ id channel, s.wakes.channels.get? id = some channel → ∃ n task report,
        c.progress n = .stands (.driving task (.waiting id report)) ∧ id ∈ c.polls n) ∧
      ∀ n, ((∃ result, c.progress n = .stands (.ended result)) ∨
          c.progress n = .stands .dropped) →
        ∀ id ∈ c.polls n, s.wakes.channels.get? id = none ∧ id ∉ s.wakes.abandoned := by
  intro s
  have hc : c.Invariant := h.invariant hops
  refine ⟨⟨hc.tidy.nodup, fun id hid => ?_⟩, fun id hpending hmark => ?_, hc.tidy.known, hc.firings,
    fun id channel hchannel => ?_, fun n hover id hid => ?_⟩
  · obtain ⟨n, hn⟩ := hc.polled id hid
    exact ⟨n, hn, (hc.polls n id hn).2⟩
  · obtain ⟨stage, hstage⟩ := hc.tidy.stands id
    rw [WakeRegistry.isPending_of_view (hstage.of_abandoned hmark).1] at hpending
    cases hpending
  · obtain ⟨n, hn⟩ := (hc.channels id).1 (Option.isSome_iff_exists.2 ⟨channel, hchannel⟩)
    obtain ⟨task, report, hprogress⟩ := Progress.eq_of_waits? hn
    exact ⟨n, task, report, hprogress, (hc.waits n id hn).1⟩
  · refine hc.nothing_left ?_ hid
    obtain ⟨result, hn⟩ | hn := hover
    · rw [hn]
      rfl
    · rw [hn]
      rfl

/-- Calls whose tasks never end. -/
def stalledOps (_ : Nat) : Operation State Wire.Value :=
  lowering (fun _ => .ok (.bool false)) .stalled

/-- The first of them is polled, and dropped as it waits. -/
def polledOnce : Calls Wire.Value :=
  take {} 0 (.stands <$> Call.unstarted.poll machine (stalledOps 0) 0 1)

def droppedOnce : Calls Wire.Value :=
  polledOnce.take 0 (.stands <$> (Call.driving 1 (.waiting 1 { polls := 1 })).drop machine)

theorem ids_settled_dropped : (∀ n, (stalledOps n).Starts) ∧ Reaches stalledOps droppedOnce ∧
    1 ∈ droppedOnce.polls 0 ∧ droppedOnce.session.wakes.channels.get? 1 = none ∧
      1 ∉ droppedOnce.session.wakes.abandoned := by
  have hops (n : Nat) : (stalledOps n).Starts := starts_lowering _ _
  have hwaits : polledOnce.progress 0 = .stands (.driving 1 (.waiting 1 { polls := 1 })) := by cbv
  have hreaches : Reaches stalledOps droppedOnce :=
    .tail (.single (.poll 1 rfl)) (.drop hwaits)
  have hdropped : droppedOnce.progress 0 = .stands .dropped := by cbv
  have hpolled : 1 ∈ droppedOnce.polls 0 := by decide +kernel
  obtain ⟨_, _, _, _, _, hover⟩ := ids_settled hops hreaches
  exact ⟨hops, hreaches, hpolled, hover 0 (.inr hdropped) 1 hpolled⟩

end Calls
end CoreBridge.Host
