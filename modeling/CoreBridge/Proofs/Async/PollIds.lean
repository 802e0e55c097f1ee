import CoreBridge.Proofs.Async.Deliveries

/-!
# The life of a poll id

An id is issued to one poll. As long as the core owes the poll its continuation,
the id is kept: by a channel that awaits the continuation, or, once its waiter has
gone away, by a mark. The continuation is delivered to the channel or clears the
mark. If instead the task is polled again or freed, the core does not owe the
continuation any more, and the id is kept all the same: it has lapsed.

Each id stands at one of these stages between the steps of a host
(`Session.Stands`), and an operation on the tasks moves none but those that are
owed, whatever the futures do.
-/
namespace CoreBridge

namespace Task

/-- The last poll of a task after an operation, where it was `last` before. -/
def Operation.follow (task : Nat) (last : Option Nat) : Operation → Option Nat
  | .poll handle data => if handle = task then some data else last
  | .free handle => if handle = task then none else last
  | _ => last

/-- The id that an operation polls with. -/
def Operation.polledIds : Operation → List Nat
  | .poll _ data => [data]
  | _ => []

/-- Whether an operation neither polls nor frees a task. -/
def Operation.Spares : Operation → Prop
  | .poll .. | .free _ => False
  | _ => True

theorem Operation.Spares.follow {op : Operation} (h : op.Spares) (task : Nat) (last : Option Nat) :
    op.follow task last = last := by
  cases op <;> first | rfl | exact h.elim

theorem Operation.Spares.polledIds {op : Operation} (h : op.Spares) : op.polledIds = [] := by
  cases op <;> first | rfl | exact h.elim

theorem Operation.Spares.not_supersedes {op : Operation} (h : op.Spares) (task : Nat) :
    ¬ op.Supersedes task := by
  cases op <;> first | exact not_false | exact h.elim

theorem Operation.follow_of_not_supersedes {task : Nat} {op : Operation}
    (h : ¬ op.Supersedes task) (last : Option Nat) : op.follow task last = last := by
  cases op with
  | poll handle data => exact if_neg h
  | free handle => exact if_neg h
  | _ => rfl

/-- An operation only makes a poll the last one that it makes. -/
theorem Operation.eq_of_follow {task id : Nat} {last : Option Nat} {op : Operation}
    (hop : ∀ handle, op ≠ .poll handle id) (h : op.follow task last = some id) :
    last = some id ∧ ¬ op.Supersedes task := by
  cases op with
  | poll handle data =>
    by_cases hhandle : handle = task
    · rw [follow, if_pos hhandle] at h
      exact absurd (Option.some.inj h ▸ rfl) (hop handle)
    · exact ⟨by rwa [follow, if_neg hhandle] at h, hhandle⟩
  | free handle =>
    by_cases hhandle : handle = task
    · rw [follow, if_pos hhandle] at h
      cases h
    · exact ⟨by rwa [follow, if_neg hhandle] at h, hhandle⟩
  | _ => exact ⟨h, not_false⟩

namespace Store

variable {s : Store} {handle data : Nat} {op : Operation}

/-- Whether the task owes the continuation for this data. -/
def Owes (s : Store) (handle data : Nat) : Prop := ∃ w, s.Owed handle w ⟨data, .armed⟩

/-- What becomes of a continuation that is owed: it is given up, it stays owed, or
it is invoked. -/
theorem Owes.perform (h : s.Owes handle data) (hs : s.Sound)
    (hop : ∀ handle, op ≠ .poll handle data) :
    let step := s.perform op
    (op.Supersedes handle ∧ step.store.Silent data ∧ step.trace.firings data = []) ∨
    (¬ op.Supersedes handle ∧ op ≠ .cancel handle ∧ step.store.Owes handle data ∧
      step.trace.firings data = []) ∨
    (¬ op.Supersedes handle ∧ step.store.Silent data ∧
      ∃ result, step.trace.firings data = [result]) := by
  obtain ⟨w, howed⟩ := h
  by_cases hsup : op.Supersedes handle
  · exact .inl ⟨hsup, howed.superseded hop hsup⟩
  · by_cases hrel : s.Releases handle w op
    · obtain ⟨hsilent, hfired⟩ := howed.released hop hrel
      exact .inr (.inr ⟨hsup, hsilent, List.length_eq_one_iff.1 hfired⟩)
    · obtain ⟨howed', hfired⟩ := howed.kept hs hop hsup hrel
      exact .inr (.inl ⟨hsup, fun hcancel => hrel ⟨hsup, .inl hcancel⟩, ⟨w, howed'⟩, hfired⟩)

end Store
end Task

namespace Host

open CoreBridge.Core CoreBridge.Task

/-! ## Stages -/

/-- Where the id of a poll stands. -/
inductive PollStage where
  | unissued
  /-- The task owes the poll its continuation. -/
  | owed (task : Nat)
  /-- The continuation will not come any more. -/
  | lapsed
  /-- The continuation has come, and its result is still to be received. -/
  | delivered (result : Int)
  | closed

namespace PollStage

/-- What the core knows of a poll at this stage. -/
def InCore (id : Nat) (s : Store) : PollStage → Prop
  | owed task => s.Owes task id
  | _ => s.Silent id

/-- What the registry keeps of a poll at this stage. -/
def Keeps : PollStage → Option Channel × Bool → Prop
  | owed _, kept | lapsed, kept =>
    (∃ call suspended, kept = (some (.awaiting call suspended), false)) ∨ kept = (none, true)
  | delivered result, kept => kept = (some (.delivered result), false)
  | unissued, kept | closed, kept => kept = (none, false)

/-- What continuations have been shown for a poll at this stage. -/
def Shows : PollStage → List Int → Prop
  | delivered result, results => results = [result]
  | closed, results => results.length ≤ 1
  | _, results => results = []

/-- Of which tasks a poll at this stage is the last one, if that matters. -/
def IsLast : PollStage → (Nat → Prop) → Prop
  | owed task, last => ∀ t, last t ↔ t = task
  | unissued, last | lapsed, last => ∀ t, ¬ last t
  | _, _ => True

end PollStage

/-- The id stands at this stage. -/
structure Session.Stands (s : Session State) (id : Nat) (stage : PollStage) : Prop where
  issued : s.wakes.nextId ≤ id ↔ stage = .unissued
  core : stage.InCore id s.core.tasks
  kept : stage.Keeps (s.wakes.view id)
  shown : stage.Shows (s.trace.firings id)
  last : stage.IsLast fun task => s.trace.lastPoll? task = some id

/-! ## Operations -/

/-- What a host shows while an operation on the tasks is performed for it. -/
structure Reports (news : Trace) (op : Task.Operation) (core : Trace) : Prop where
  firings : ∀ id, news.firings id = core.firings id
  follow : ∀ task last, Trace.follow task last news = op.follow task last
  polledIds : news.polledIds = op.polledIds
  known : ∀ id, unknownPoll id ∉ news

/-- Whether every continuation that an operation invokes is expected, and comes once. -/
def Session.Foresees (s : Session State) (op : Task.Operation) : Prop :=
  ∀ id, (s.core.tasks.perform op).trace.firings id = [] ∨
    (∃ result, (s.core.tasks.perform op).trace.firings id = [result]) ∧ s.wakes.Expects id

/-- A session comes of another one by an operation on the tasks; a poll is made
under a fresh id. -/
structure Session.Undergoes (s s' : Session State) (op : Task.Operation) : Prop where
  tasks : s'.core.tasks = (s.core.tasks.perform op).store
  fresh : ∀ handle id, op = .poll handle id → id = s.wakes.nextId
  ids : s'.wakes.nextId = s.wakes.nextId + op.polledIds.length
  view : ∀ id, (∀ handle, op ≠ .poll handle id) → s'.wakes.view id =
    ((s.core.tasks.perform op).trace.firings id).foldl WakeRegistry.arrive (s.wakes.view id)
  news : ∃ news, s'.trace = s.trace ++ news ∧ Reports news op (s.core.tasks.perform op).trace

variable {s s' : Session State} {op : Task.Operation} {id : Nat} {stage : PollStage}

namespace Session

theorem Undergoes.lastPoll? (h : s.Undergoes s' op) (task : Nat) :
    s'.trace.lastPoll? task = op.follow task (s.trace.lastPoll? task) := by
  obtain ⟨news, htrace, hnews⟩ := h.news
  rw [htrace, Trace.lastPoll?_append, hnews.follow]

theorem Undergoes.firings (h : s.Undergoes s' op) (id : Nat) : s'.trace.firings id =
    s.trace.firings id ++ (s.core.tasks.perform op).trace.firings id := by
  obtain ⟨news, htrace, hnews⟩ := h.news
  rw [htrace, Trace.firings_append, hnews.firings]

/-- An operation issues no id but the one that it polls with. -/
theorem Undergoes.issued (h : s.Undergoes s' op) (hop : ∀ handle, op ≠ .poll handle id) :
    s'.wakes.nextId ≤ id ↔ s.wakes.nextId ≤ id := by
  have hids := h.ids
  cases op with
  | poll handle data =>
    have hfresh : data = s.wakes.nextId := h.fresh handle data rfl
    have hne : data ≠ id := fun heq => hop handle (heq ▸ rfl)
    simp only [Operation.polledIds, List.length_singleton] at hids
    omega
  | _ => rw [hids]; rfl

/-- An id whose continuation is not invoked stays where it stands, as far as the
core knows. -/
theorem Stands.undergoes_of_firings (h : s.Stands id stage) (hu : s.Undergoes s' op)
    (hop : ∀ handle, op ≠ .poll handle id)
    (hfired : (s.core.tasks.perform op).trace.firings id = [])
    (hcore : stage.InCore id s'.core.tasks)
    (hlast : stage.IsLast fun task => s'.trace.lastPoll? task = some id) : s'.Stands id stage where
  issued := by rw [hu.issued hop, h.issued]
  core := hcore
  kept := by
    rw [hu.view id hop, hfired]
    exact h.kept
  shown := by
    rw [hu.firings, hfired, List.append_nil]
    exact h.shown
  last := hlast

/-- An id that is not owed stays where it stands. -/
theorem Stands.undergoes_of_silent (h : s.Stands id stage) (hstage : ∀ task, stage ≠ .owed task)
    (hu : s.Undergoes s' op) (hop : ∀ handle, op ≠ .poll handle id) : s'.Stands id stage := by
  have hsilent : s.core.tasks.Silent id := by
    have hcore := h.core
    cases stage with
    | owed task => exact absurd rfl (hstage task)
    | _ => exact hcore
  obtain ⟨hsilent', hfired⟩ := hsilent.perform hop
  rw [← hu.tasks] at hsilent'
  refine h.undergoes_of_firings hu hop hfired ?_ ?_
  · cases stage with
    | owed task => exact absurd rfl (hstage task)
    | _ => exact hsilent'
  · have hlast := h.last
    have hnever (hnone : ∀ task, s.trace.lastPoll? task ≠ some id) (task : Nat) :
        s'.trace.lastPoll? task ≠ some id := by
      rw [hu.lastPoll?]
      exact fun heq => hnone task (Operation.eq_of_follow hop heq).1
    cases stage with
    | owed task => exact absurd rfl (hstage task)
    | unissued => exact hnever hlast
    | lapsed => exact hnever hlast
    | _ => trivial

/-- What becomes of an id that a task owes: it lapses if the task is polled again or
freed, and else it stays owed or its continuation comes. -/
theorem Stands.undergoes_of_owed {task : Nat} (h : s.Stands id (.owed task))
    (hs : s.core.tasks.Sound) (hu : s.Undergoes s' op) (hop : ∀ handle, op ≠ .poll handle id) :
    (op.Supersedes task ∧ s'.Stands id .lapsed) ∨ op ≠ .cancel task ∧ s'.Stands id (.owed task) ∨
      (∃ result, s'.Stands id (.delivered result)) ∨ s'.Stands id .closed := by
  have howes : s.core.tasks.Owes task id := h.core
  have hlast : ∀ t, s.trace.lastPoll? t = some id ↔ t = task := h.last
  have hissued : ¬ s'.wakes.nextId ≤ id := by
    rw [hu.issued hop, h.issued]
    exact fun heq => by cases heq
  have hunissued (stage : PollStage) (hne : stage ≠ .unissued) :
      s'.wakes.nextId ≤ id ↔ stage = .unissued := iff_of_false hissued hne
  have hshown : s.trace.firings id = [] := h.shown
  obtain ⟨hsup, hsilent, hfired⟩ | ⟨hsup, hcancel, howes', hfired⟩ |
    ⟨hsup, hsilent, result, hfired⟩ := howes.perform hs hop
  · have hnever (t : Nat) : s'.trace.lastPoll? t ≠ some id := by
      intro heq
      rw [hu.lastPoll?] at heq
      obtain ⟨hbefore, hnot⟩ := Operation.eq_of_follow hop heq
      exact hnot ((hlast t).1 hbefore ▸ hsup)
    refine .inl ⟨hsup, hunissued _ (fun heq => by cases heq), hu.tasks ▸ hsilent, ?_, ?_, hnever⟩
    · rw [hu.view id hop, hfired]
      exact h.kept
    · rw [hu.firings, hfired, hshown]
      rfl
  · have hlast' (t : Nat) : s'.trace.lastPoll? t = some id ↔ t = task := by
      rw [← hlast t, hu.lastPoll?]
      constructor
      · exact fun heq => (Operation.eq_of_follow hop heq).1
      · intro heq
        obtain rfl := (hlast t).1 heq
        rwa [Operation.follow_of_not_supersedes hsup]
    exact .inr (.inl ⟨hcancel, h.undergoes_of_firings hu hop hfired (hu.tasks ▸ howes') hlast'⟩)
  · have hview := hu.view id hop
    have hfirings := hu.firings id
    rw [hfired] at hview hfirings
    rw [hshown] at hfirings
    rw [← hu.tasks] at hsilent
    obtain ⟨call, suspended, hkept⟩ | hkept := h.kept
    · rw [hkept] at hview
      exact .inr (.inr (.inl ⟨result, hunissued _ (fun heq => by cases heq), hsilent, hview,
        hfirings, trivial⟩))
    · rw [hkept] at hview
      exact .inr (.inr (.inr ⟨hunissued _ (fun heq => by cases heq), hsilent, hview,
        by rw [hfirings]; exact le_rfl, trivial⟩))

/-- The continuation of an id is invoked by an operation only if the id is kept. -/
theorem Stands.foresees (h : s.Stands id stage) (hs : s.core.tasks.Sound)
    (hop : ∀ handle, op ≠ .poll handle id) :
    (s.core.tasks.perform op).trace.firings id = [] ∨
      (∃ result, (s.core.tasks.perform op).trace.firings id = [result]) ∧ s.wakes.Expects id := by
  have hsilent (hsilent : s.core.tasks.Silent id) := (hsilent.perform hop).2
  have hcore := h.core
  cases stage with
  | owed task =>
    obtain ⟨_, _, hfired⟩ | ⟨_, _, _, hfired⟩ | ⟨_, _, hfired⟩ := Store.Owes.perform hcore hs hop
    · exact .inl hfired
    · exact .inl hfired
    · refine .inr ⟨hfired, ?_⟩
      obtain ⟨call, suspended, hkept⟩ | hkept := h.kept
      · exact .inl ⟨call, suspended, (Prod.mk.inj hkept).1⟩
      · exact .inr (of_decide_eq_true (Prod.mk.inj hkept).2)
  | _ => exact .inl (hsilent hcore)

end Session
end Host
end CoreBridge
