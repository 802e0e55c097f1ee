import CoreBridge.Proofs.Async.PollIds
import CoreBridge.Proofs.Async.Serving

/-!
# Tidy sessions

A session is tidy if each poll had an id of its own, each id stands at a stage, and
no continuation was taken for one of an unknown poll. Whatever a host does with the
tasks of its core comes down to operations on them (`Session.Undergoes`), to closing
channels and to waiting on them, and all of these keep a session tidy.
-/
namespace CoreBridge.Host

open CoreBridge.Core CoreBridge.Task

/-! ## Channels -/

namespace WakeRegistry

variable (r : WakeRegistry) (call i id : Nat) (armed : Bool)

theorem view_register : (r.register call).2.view id =
    if r.nextId = id then (some (.awaiting call false), (r.view id).2) else r.view id := by
  simp only [register, view, Table.get?_set]
  split_ifs <;> rfl

theorem view_unregister : (r.unregister i armed).view id =
    if i = id then (none, r.isPending id && armed || (r.view id).2) else r.view id := by
  simp only [unregister, view, Table.get?_erase]
  by_cases hi : i = id
  · subst hi
    by_cases hpending : (r.isPending i && armed) = true
    · simp [hpending]
    · simp [Bool.eq_false_iff.2 hpending]
  · split_ifs <;> simp [Ne.symm hi]

variable {r id} in
theorem isPending_of_view {kept : Option Channel × Bool} (h : r.view id = kept) :
    r.isPending id = match kept.1 with
      | some (.awaiting ..) => true
      | _ => false := by
  rw [← h]
  rfl

/-- Waiting on a channel changes at most whom it wakes. -/
theorem view_suspend : (r.suspend i).view id = r.view id ∨
    ∃ call suspended, r.view id = (some (.awaiting call suspended), (r.view id).2) ∧
      (r.suspend i).view id = (some (.awaiting call true), (r.view id).2) := by
  unfold WakeRegistry.suspend
  split
  · rename_i call suspended hget
    by_cases hi : i = id
    · subst hi
      exact .inr ⟨call, suspended, by simp [view, hget], by simp [view]⟩
    · exact .inl (by simp [view, hi])
  · exact .inl rfl

variable {r id} in
theorem get?_of_received? {result : Int} (h : r.received? id = some result) :
    r.channels.get? id = some (.delivered result) := by
  unfold WakeRegistry.received? at h
  split at h
  · rename_i hget
    rw [hget, Option.some.inj h]
  · cases h

/-- Continuations neither open nor close a channel, and set no mark. -/
theorem foldl_arrive (results : List Int) (kept : Option Channel × Bool) :
    (results.foldl arrive kept).1.isSome = kept.1.isSome ∧
      ((results.foldl arrive kept).2 = true → kept.2 = true) := by
  induction results generalizing kept with
  | nil => exact ⟨rfl, fun h => h⟩
  | cons result results ih =>
    obtain ⟨hchannel, hmark⟩ := ih (arrive kept result)
    obtain ⟨channel, isAbandoned⟩ := kept
    cases channel with
    | none => exact ⟨hchannel, fun h => absurd (hmark h) Bool.false_ne_true⟩
    | some channel =>
      cases channel with
      | awaiting call suspended => exact ⟨hchannel, hmark⟩
      | delivered first => exact ⟨hchannel, fun h => absurd (hmark h) Bool.false_ne_true⟩

end WakeRegistry

variable {s s' : Session State} {op : Task.Operation} {id : Nat} {stage : PollStage}

namespace Session

theorem Stands.rewake {wakes : WakeRegistry} (h : s.Stands id stage)
    (hids : wakes.nextId = s.wakes.nextId) (hkept : stage.Keeps (wakes.view id)) :
    Stands { s with wakes } id stage :=
  ⟨hids ▸ h.issued, h.core, hkept, h.shown, h.last⟩

theorem Stands.suspend (h : s.Stands id stage) (i : Nat) :
    Stands { s with wakes := s.wakes.suspend i } id stage := by
  refine h.rewake (WakeRegistry.nextId_suspend s.wakes i) ?_
  have hkept := h.kept
  obtain hsame | ⟨call, suspended, hbefore, hafter⟩ := s.wakes.view_suspend i id
  · rwa [hsame]
  · rw [hbefore] at hkept
    rw [hafter]
    cases stage with
    | owed task | lapsed =>
      obtain ⟨call', suspended', heq⟩ | heq := hkept
      · obtain ⟨_, hmark⟩ := Prod.mk.inj heq
        exact .inl ⟨call, true, by rw [hmark]⟩
      · cases (Prod.mk.inj heq).1
    | delivered result => cases (Prod.mk.inj hkept).1
    | unissued | closed => cases (Prod.mk.inj hkept).1

/-- Closing a channel marks its poll if nothing has come, and else ends it. -/
theorem Stands.close (h : s.Stands id stage) (i : Nat) :
    ∃ stage', (Drive.closed i true s).Stands id stage' ∧ (stage' = .closed ∨ stage' = stage) := by
  have hview := s.wakes.view_unregister i id true
  have hkept := h.kept
  by_cases hi : i = id
  · rw [if_pos hi, Bool.and_true] at hview
    have hstays (hkept' : stage.Keeps ((s.wakes.unregister i true).view id)) :
        ∃ stage', (Drive.closed i true s).Stands id stage' ∧
          (stage' = .closed ∨ stage' = stage) := ⟨stage, h.rewake rfl hkept', .inr rfl⟩
    cases stage with
    | owed task | lapsed =>
      refine hstays (.inr ?_)
      rw [hview]
      obtain ⟨call, suspended, hkept⟩ | hkept := hkept
      · rw [WakeRegistry.isPending_of_view hkept]
        rfl
      · rw [hkept, Bool.or_true]
    | delivered result =>
      have hshown : s.trace.firings id = [result] := h.shown
      refine ⟨.closed, ⟨?_, h.core, ?_, ?_, trivial⟩, .inl rfl⟩
      · exact h.issued.trans (iff_of_false (fun heq => by cases heq) fun heq => by cases heq)
      · exact hview.trans (by rw [WakeRegistry.isPending_of_view hkept, hkept]; rfl)
      · exact (congrArg List.length hshown).le
    | unissued | closed =>
      exact hstays (hview.trans (by rw [WakeRegistry.isPending_of_view hkept, hkept]; rfl))
  · rw [if_neg hi] at hview
    exact ⟨stage, h.rewake rfl (hview.symm ▸ hkept), .inr rfl⟩

end Session

/-! ## What a host takes over from its core -/

variable {before after middle rest core : Trace}

/-- What a host shows of its own goes around what it takes over. -/
theorem Reports.around (h : Reports (before ++ after) op []) (hmiddle : middle.IsQuiet)
    (hfirings : ∀ id, middle.firings id = core.firings id) (hrest : rest.IsIdle) :
    Reports (before ++ middle ++ after ++ rest) op core where
  firings id := by
    have hnone : before.firings id = [] ∧ after.firings id = [] :=
      List.append_eq_nil_iff.1 ((Trace.firings_append id before after).symm.trans (h.firings id))
    simp only [Trace.firings_append, hnone, hrest.firings, hfirings, List.nil_append,
      List.append_nil]
  follow task last := by
    rw [Trace.follow_append, Trace.follow_append, Trace.follow_append, hmiddle.follow,
      hrest.isQuiet.follow, ← Trace.follow_append]
    exact h.follow task last
  polledIds := by
    rw [← h.polledIds]
    simp only [Trace.polledIds_append, hmiddle.polledIds, hrest.isQuiet.polledIds, List.append_nil]
  known id := by
    have hknown := h.known id
    simp only [List.mem_append, not_or] at hknown ⊢
    exact ⟨⟨⟨hknown.1, hmiddle.not_mem_unknownPoll id⟩, hknown.2⟩,
      hrest.isQuiet.not_mem_unknownPoll id⟩

theorem reports_nil (hop : op.Spares) : Reports [] op [] :=
  ⟨fun _ => rfl, fun task last => (hop.follow task last).symm, hop.polledIds.symm,
    fun _ => List.not_mem_nil⟩

namespace Session

/-- A session comes of another one by an operation if its host, with the registry
`r` at the time, takes over what the operation shows. -/
theorem undergoes_of_shown {r : WakeRegistry} {trace : Trace}
    (htasks : s'.core.tasks = (s.core.tasks.perform op).store)
    (hfresh : ∀ handle id, op = .poll handle id → id = s.wakes.nextId)
    (hids : r.nextId = s.wakes.nextId + op.polledIds.length)
    (hview : ∀ id, (∀ handle, op ≠ .poll handle id) → r.view id = s.wakes.view id)
    (htrace : trace.IsQuiet)
    (hfirings : ∀ id, trace.firings id = (s.core.tasks.perform op).trace.firings id)
    (hexpects : ∀ id, (s.core.tasks.perform op).trace.firings id = [] ∨
      (∃ result, (s.core.tasks.perform op).trace.firings id = [result]) ∧ r.Expects id)
    (hreports : Reports (before ++ after) op []) (hwakes : s'.wakes = r.deliverAll trace)
    (hrest : rest.IsIdle)
    (hnews : s'.trace = s.trace ++ (before ++ r.shown trace ++ after ++ rest)) :
    s.Undergoes s' op where
  tasks := htasks
  fresh := hfresh
  ids := by rw [hwakes, WakeRegistry.nextId_deliverAll, hids]
  view id hop := by rw [hwakes, WakeRegistry.view_deliverAll, hfirings, hview id hop]
  news := by
    refine ⟨_, hnews, hreports.around ?_ ?_ hrest⟩
    · exact WakeRegistry.isQuiet_shown htrace fun id => (hfirings id).symm ▸ hexpects id
    · exact fun id => (WakeRegistry.firings_shown r trace id).trans (hfirings id)

/-- A poll is marked only as long as its continuation has not come. -/
theorem Stands.of_abandoned (h : s.Stands id stage) (hmark : id ∈ s.wakes.abandoned) :
    s.wakes.view id = (none, true) ∧ (stage = .lapsed ∨ ∃ task, stage = .owed task) := by
  have hview : (s.wakes.view id).2 = true := decide_eq_true hmark
  have hkept := h.kept
  have hunmarked {channel : Option Channel} (heq : s.wakes.view id = (channel, false)) : False := by
    rw [heq] at hview
    cases hview
  cases stage with
  | owed task | lapsed =>
    obtain ⟨call, suspended, heq⟩ | heq := hkept
    · exact (hunmarked heq).elim
    · exact ⟨heq, by simp⟩
  | delivered result => exact (hunmarked hkept).elim
  | unissued | closed => exact (hunmarked hkept).elim

/-- A poll that neither waits for its continuation nor has lapsed has no mark. -/
theorem Stands.not_abandoned (h : s.Stands id stage) (hlapsed : stage ≠ .lapsed)
    (howed : ∀ task, stage ≠ .owed task) : id ∉ s.wakes.abandoned := by
  intro hmark
  obtain ⟨_, heq | ⟨task, heq⟩⟩ := h.of_abandoned hmark
  · exact hlapsed heq
  · exact howed task heq

/-- The core keeps the waker of a poll armed exactly while it owes the continuation. -/
theorem Stands.armed_iff (h : s.Stands id stage) :
    (∃ v : Nat, s.core.tasks.wakers[v]? = some (⟨id, .armed⟩ : Waker)) ↔
      ∃ task, stage = .owed task := by
  have hsilent (hsilent : s.core.tasks.Silent id) :
      ¬ ∃ v : Nat, s.core.tasks.wakers[v]? = some (⟨id, .armed⟩ : Waker) := by
    rintro ⟨v, hv⟩
    cases hsilent v _ hv rfl
  have hcore := h.core
  cases stage with
  | owed task =>
    obtain ⟨w, howed⟩ := hcore
    exact iff_of_true ⟨w, howed.marked.1⟩ ⟨task, rfl⟩
  | _ => exact iff_of_false (hsilent hcore) fun ⟨task, heq⟩ => by cases heq

/-- Cancelling a task brings the continuation that it owes, which leaves no mark. -/
theorem Stands.cancel {task : Nat} (h : s.Stands id (.owed task)) (hs : s.core.tasks.Sound)
    (hu : s.Undergoes s' (.cancel task)) : id ∉ s'.wakes.abandoned := by
  obtain ⟨hsup, _⟩ | ⟨hcancel, _⟩ | ⟨result, hstage⟩ | hstage :=
    h.undergoes_of_owed hs hu fun handle heq => by cases heq
  · exact hsup.elim
  · exact absurd rfl hcancel
  · exact hstage.not_abandoned (fun heq => by cases heq) fun task heq => by cases heq
  · exact hstage.not_abandoned (fun heq => by cases heq) fun task heq => by cases heq

/-- Each poll has had an id of its own, each id stands at a stage, and no continuation
has been taken for one of an unknown poll. -/
structure Tidy (s : Session State) : Prop where
  sound : s.core.tasks.Sound
  below : s.core.tasks.Below s.wakes.nextId
  stands : ∀ id, ∃ stage, s.Stands id stage
  issued : ∀ id ∈ s.trace.polledIds, id < s.wakes.nextId
  nodup : s.trace.polledIds.Nodup
  known : ∀ id, unknownPoll id ∉ s.trace

theorem tidy_initial (core : State) (hcore : core.tasks = {}) : Tidy { core } where
  sound := hcore ▸ Store.sound_empty
  below := by simp [hcore, Store.Below, Store.bare]
  stands id := by
    have hsilent : core.tasks.Silent id := by simp [hcore, Store.Silent]
    have hnone : ∀ task : Nat, Trace.lastPoll? task [] ≠ some id := fun task heq => by cases heq
    by_cases hid : 1 ≤ id
    · exact ⟨.unissued, iff_of_true hid rfl, hsilent, rfl, rfl, hnone⟩
    · have hissued : 1 ≤ id ↔ PollStage.closed = .unissued :=
        iff_of_false hid fun heq => by cases heq
      exact ⟨.closed, hissued, hsilent, rfl, Nat.zero_le 1, trivial⟩
  issued id hid := by cases hid
  nodup := List.nodup_nil
  known _ := List.not_mem_nil

/-- An id stands at a stage again, and lapses only if its poll is superseded. -/
theorem Stands.undergoes (h : s.Stands id stage) (hs : s.core.tasks.Sound) (hu : s.Undergoes s' op)
    (hop : ∀ handle, op ≠ .poll handle id) : ∃ stage', s'.Stands id stage' ∧
      (stage' = .lapsed → stage = .lapsed ∨ ∃ task, stage = .owed task ∧ op.Supersedes task) := by
  by_cases howed : ∃ task, stage = .owed task
  · obtain ⟨task, rfl⟩ := howed
    obtain ⟨hsup, hlapsed⟩ | ⟨_, howed⟩ | ⟨result, hdelivered⟩ | hclosed :=
      h.undergoes_of_owed hs hu hop
    · exact ⟨_, hlapsed, fun _ => .inr ⟨task, rfl, hsup⟩⟩
    · exact ⟨_, howed, fun heq => by cases heq⟩
    · exact ⟨_, hdelivered, fun heq => by cases heq⟩
    · exact ⟨_, hclosed, fun heq => by cases heq⟩
  · exact ⟨stage, h.undergoes_of_silent (fun task heq => howed ⟨task, heq⟩) hu hop, .inl⟩

/-- An operation opens no channel but the one it polls with, and closes none. -/
theorem Undergoes.isSome_view (hu : s.Undergoes s' op) (hop : ∀ handle, op ≠ .poll handle id) :
    (s'.wakes.view id).1.isSome = (s.wakes.view id).1.isSome := by
  rw [hu.view id hop]
  exact (WakeRegistry.foldl_arrive _ _).1

/-- An operation marks no poll. -/
theorem Undergoes.of_mem_abandoned (hu : s.Undergoes s' op) (hop : ∀ handle, op ≠ .poll handle id)
    (h : id ∈ s'.wakes.abandoned) : id ∈ s.wakes.abandoned := by
  have hmark : (s'.wakes.view id).2 = true := decide_eq_true h
  rw [hu.view id hop] at hmark
  exact of_decide_eq_true ((WakeRegistry.foldl_arrive _ _).2 hmark)

theorem Undergoes.nextHandle_le (hu : s.Undergoes s' op) :
    s.core.tasks.nextHandle ≤ s'.core.tasks.nextHandle := by
  rw [hu.tasks]
  exact s.core.tasks.nextHandle_le_perform op

theorem Undergoes.polledIds (hu : s.Undergoes s' op) :
    s'.trace.polledIds = s.trace.polledIds ++ op.polledIds := by
  obtain ⟨news, htrace, hnews⟩ := hu.news
  rw [htrace, Trace.polledIds_append, hnews.polledIds]

theorem Tidy.undergoes (hs : s.Tidy) (hu : s.Undergoes s' op)
    (hown : ∀ handle id, op = .poll handle id → ∃ stage, s'.Stands id stage) : s'.Tidy := by
  obtain ⟨news, htrace, hnews⟩ := hu.news
  have hids : ∀ id ∈ op.polledIds, id = s.wakes.nextId ∧ id < s'.wakes.nextId := by
    intro id hid
    have hlength := hu.ids
    cases op with
    | poll handle data =>
      obtain rfl := List.mem_singleton.1 hid
      have hfresh : id = s.wakes.nextId := hu.fresh handle id rfl
      exact ⟨hfresh, by rw [hlength, ← hfresh]; exact Nat.lt_succ_self id⟩
    | _ => cases hid
  have hle : s.wakes.nextId ≤ s'.wakes.nextId := hu.ids ▸ Nat.le_add_right _ _
  refine ⟨hu.tasks ▸ hs.sound.perform op, ?_, fun id => ?_, fun id hid => ?_, ?_, fun id => ?_⟩
  · refine hu.tasks ▸ (hs.below.mono hle).perform fun handle data heq => ?_
    exact (hids data (heq ▸ List.mem_singleton_self data)).2
  · by_cases hop : ∃ handle, op = .poll handle id
    · obtain ⟨handle, heq⟩ := hop
      exact hown handle id heq
    · obtain ⟨stage, hstage⟩ := hs.stands id
      obtain ⟨stage', hstage', _⟩ :=
        hstage.undergoes hs.sound hu fun handle heq => hop ⟨handle, heq⟩
      exact ⟨stage', hstage'⟩
  · rw [htrace, Trace.polledIds_append, hnews.polledIds, List.mem_append] at hid
    obtain hid | hid := hid
    · exact Nat.lt_of_lt_of_le (hs.issued id hid) hle
    · exact (hids id hid).2
  · rw [htrace, Trace.polledIds_append, hnews.polledIds]
    refine hs.nodup.append ?_ fun id hid hid' => ?_
    · cases op with
      | poll handle data => exact List.nodup_singleton data
      | _ => exact List.nodup_nil
    · exact absurd (hs.issued id hid) (Nat.not_lt.2 (hids id hid').1.ge)
  · rw [htrace, List.mem_append]
    exact not_or.2 ⟨hs.known id, hnews.known id⟩

/-- In a tidy session every continuation that an operation invokes is expected. -/
theorem Tidy.foresees (hs : s.Tidy) (hop : op.polledIds = []) : s.Foresees op := by
  intro id
  obtain ⟨stage, hstage⟩ := hs.stands id
  refine hstage.foresees hs.sound fun handle heq => ?_
  rw [heq] at hop
  cases hop

theorem Tidy.rewake {wakes : WakeRegistry} (hs : s.Tidy) (hids : wakes.nextId = s.wakes.nextId)
    (hstands : ∀ id, ∃ stage, Stands { s with wakes } id stage) : Tidy { s with wakes } where
  sound := hs.sound
  below := hids ▸ hs.below
  stands := hstands
  issued := hids ▸ hs.issued
  nodup := hs.nodup
  known := hs.known

theorem Tidy.suspend (hs : s.Tidy) (i : Nat) : Tidy { s with wakes := s.wakes.suspend i } := by
  refine hs.rewake (WakeRegistry.nextId_suspend s.wakes i) fun id => ?_
  obtain ⟨stage, hstage⟩ := hs.stands id
  exact ⟨stage, hstage.suspend i⟩

theorem Tidy.close (hs : s.Tidy) (i : Nat) : (Drive.closed i true s).Tidy := by
  refine hs.rewake rfl fun id => ?_
  obtain ⟨stage, hstage⟩ := hs.stands id
  obtain ⟨stage', hstage', _⟩ := hstage.close i
  exact ⟨stage', hstage'⟩

end Session

/-! ## The steps of a host -/

theorem reports_polled (task id : Nat) (answer : Int) :
    Reports ([] ++ [.polled task id answer]) (.poll task id) [] where
  firings _ := rfl
  follow _ _ := rfl
  polledIds := rfl
  known _ hmem := by cases List.mem_singleton.1 hmem

/-- The entry of a poll under a fresh id, and what is kept for the id after it. -/
theorem HostM.poll_undergoes (hs : s.Tidy) (number task : Nat) :
    let id := s.wakes.nextId
    let step := s.core.tasks.poll task id
    ∃ s₁, (HostM.call (machine.poll task id) fun answer => [.polled task id answer]).run
        { s with wakes := (s.wakes.register number).2 } = (.ok step.value, s₁) ∧
      s.Undergoes s₁ (.poll task id) ∧ s₁.wakes.view id =
        (step.trace.firings id).foldl WakeRegistry.arrive
          (some (.awaiting number false), false) := by
  intro id step
  let r := (s.wakes.register number).2
  obtain ⟨s₁, hcall, htasks, hwakes⟩ := HostM.call_onTasks (fun tasks => tasks.poll task id)
    (fun answer => [.polled task id answer]) { s with wakes := r }
  obtain ⟨rest, hrest, htrace⟩ := HostM.call_trace
    (fun core : State => core.onTasks fun tasks => tasks.poll task id)
    (fun answer => [.polled task id answer]) { s with wakes := r }
  have hnews : s₁.trace =
      s.trace ++ ([] ++ r.shown step.trace ++ [.polled task id step.value] ++ rest) := by
    rw [hcall] at htrace
    rw [List.nil_append, ← List.append_assoc, ← List.append_assoc]
    exact htrace
  have hview : r.view id = (some (.awaiting number false), false) := by
    have hunissued : s.wakes.view id = (none, false) := by
      obtain ⟨stage, hstage⟩ := hs.stands id
      obtain rfl := hstage.issued.1 le_rfl
      exact hstage.kept
    rw [s.wakes.view_register number id, if_pos rfl, hunissued]
  have hother (i : Nat) (hi : ∀ handle, Task.Operation.poll task id ≠ .poll handle i) :
      r.view i = s.wakes.view i := by
    rw [s.wakes.view_register number i, if_neg fun heq : id = i => hi task (heq ▸ rfl)]
  refine ⟨s₁, hcall, ?_, ?_⟩
  · refine Session.undergoes_of_shown htasks (fun handle i heq => ?_) rfl hother
      (Store.isQuiet_perform s.core.tasks (.poll task id)) (fun _ => rfl) (fun i => ?_)
      (reports_polled task id step.value) hwakes hrest hnews
    · exact (Task.Operation.poll.inj heq).2.symm
    · by_cases hi : i = id
      · subst hi
        have hexpects : r.Expects id := .inl ⟨number, false, (Prod.mk.inj hview).1⟩
        obtain ⟨_, _, hfired⟩ | ⟨_, ⟨_, _, hfired⟩ | ⟨_, _, hfired⟩⟩ :=
          Store.poll_own hs.below.unused hs.sound task
        · exact .inl hfired
        · exact .inr ⟨⟨_, hfired⟩, hexpects⟩
        · exact .inl hfired
      · have hi' (handle : Nat) : Task.Operation.poll task id ≠ .poll handle i :=
          fun heq => hi (Task.Operation.poll.inj heq).2.symm
        obtain ⟨stage, hstage⟩ := hs.stands i
        rw [WakeRegistry.expects_congr (hother i hi')]
        exact hstage.foresees hs.sound hi'
  · have hdelivered := WakeRegistry.view_deliverAll r step.trace id
    rw [hview] at hdelivered
    rw [hwakes]
    exact hdelivered

/-- Closing the channel of the poll that was made changes nothing for the others. -/
theorem Session.Undergoes.closed {task : Nat} (h : s.Undergoes s' (.poll task id)) (armed : Bool) :
    s.Undergoes (Drive.closed id armed s') (.poll task id) where
  tasks := h.tasks
  fresh := h.fresh
  ids := h.ids
  view i hi := by
    rw [← h.view i hi]
    exact (s'.wakes.view_unregister id i armed).trans
      (if_neg fun heq : id = i => hi task (heq ▸ rfl))
  news := h.news

/-- A poll: what it comes to, and where its id stands after it. -/
theorem Drive.poll_undergoes (hs : s.Tidy) (number task : Nat) (report : PollReport) :
    let id := s.wakes.nextId
    ∃ report' s', s.Undergoes s' (.poll task id) ∧
      ((Drive.poll machine number task report).run s = (.finished report', s') ∧
          s'.Stands id .closed ∨
        (Drive.poll machine number task report).run s = (.waiting id report', s') ∧
          (s'.wakes.view id).1.isSome ∧
          (s'.Stands id (.owed task) ∨ ∃ result, s'.Stands id (.delivered result))) := by
  intro id
  obtain ⟨s₁, hcall, hu, hview⟩ := HostM.poll_undergoes hs number task
  have hpoll := Drive.poll_eq machine number task report rfl hcall
  obtain ⟨stage, hunissued⟩ := hs.stands id
  obtain rfl := hunissued.issued.1 le_rfl
  have hissued : ¬ s₁.wakes.nextId ≤ id := by
    rw [hu.ids]
    exact Nat.not_succ_le_self id
  have hstage (stage : PollStage) (hne : stage ≠ .unissued) :
      s₁.wakes.nextId ≤ id ↔ stage = .unissued := iff_of_false hissued hne
  have hfirings := hu.firings id
  rw [show s.trace.firings id = [] from hunissued.shown, List.nil_append] at hfirings
  have hlast (t : Nat) : s₁.trace.lastPoll? t = some id ↔ t = task := by
    have hnever : s.trace.lastPoll? t ≠ some id := hunissued.last t
    rw [hu.lastPoll?, Task.Operation.follow]
    by_cases ht : task = t
    · rw [if_pos ht]
      exact iff_of_true rfl ht.symm
    · rw [if_neg ht]
      exact iff_of_false hnever (Ne.symm ht)
  refine ⟨{ report with polls := report.polls + 1 }, ?_⟩
  obtain ⟨hready, hsilent, hfired⟩ | ⟨hpending, hown⟩ :=
    Store.poll_own hs.below.unused hs.sound task
  · refine ⟨Drive.closed id false s₁, hu.closed false, .inl ⟨?_, ?_⟩⟩
    · rw [hpoll]
      exact if_pos hready
    · refine ⟨hstage _ (fun heq => by cases heq), hu.tasks ▸ hsilent, ?_, ?_, trivial⟩
      · rw [hfired] at hview
        refine (s₁.wakes.view_unregister id id false).trans ?_
        rw [if_pos rfl, hview, Bool.and_false]
        rfl
      · exact (congrArg List.length (hfirings.trans hfired)).trans_le (Nat.zero_le 1)
  · have hrun : (Drive.poll machine number task report).run s =
        (.waiting id { report with polls := report.polls + 1 }, s₁) := by
      rw [hpoll]
      exact if_neg fun hready => absurd (hready.symm.trans hpending) (by decide)
    refine ⟨s₁, hu, .inr ⟨hrun, ?_⟩⟩
    obtain ⟨_, hsilent, hfired⟩ | ⟨_, howed, hfired⟩ := hown
    · rw [hfired] at hview
      refine ⟨by rw [hview]; rfl, .inr ⟨pollMaybeReady, ?_⟩⟩
      exact ⟨hstage _ (fun heq => by cases heq), hu.tasks ▸ hsilent, hview, hfirings.trans hfired,
        trivial⟩
    · rw [hfired] at hview
      refine ⟨by rw [hview]; rfl, .inl ?_⟩
      exact ⟨hstage _ (fun heq => by cases heq), ⟨_, hu.tasks ▸ howed⟩, .inl ⟨number, false, hview⟩,
        hfirings.trans hfired, hlast⟩

/-- Taking the result of a poll. -/
theorem Drive.receive_eq (id : Nat) (report : PollReport) (s : Session State) :
    (Drive.receive id report).run s = (Drive.received id report (s.wakes.received? id),
      if s.wakes.received? id = none then { s with wakes := s.wakes.suspend id }
      else Drive.closed id true s) := by
  unfold Drive.receive Drive.received
  simp only [StateT.run_bind, HostM.onWakes_run]
  dsimp only [Bind.bind]
  cases s.wakes.received? id with
  | none => rfl
  | some result =>
    dsimp only
    split <;> rfl

/-- What polls and receipts keep is kept by driving a task. -/
theorem Drive.run_keeps {P : Drive → Session State → Prop} {number task : Nat}
    (hpoll : ∀ report s, P (.polling report) s →
      P ((Drive.poll machine number task report).run s).1
        ((Drive.poll machine number task report).run s).2)
    (hreceive : ∀ id report s, P (.waiting id report) s →
      P ((Drive.receive id report).run s).1 ((Drive.receive id report).run s).2)
    (fuel : Nat) {d : Drive} (h : P d s) :
    P ((Drive.run machine number task fuel d).run s).1
      ((Drive.run machine number task fuel d).run s).2 := by
  induction fuel generalizing d s with
  | zero => exact h
  | succ fuel ih =>
    have hwaiting (id : Nat) (report : PollReport) (s : Session State)
        (h : P (.waiting id report) s) :
        P ((Drive.run machine number task (fuel + 1) (.waiting id report)).run s).1
          ((Drive.run machine number task (fuel + 1) (.waiting id report)).run s).2 := by
      have hreceived := hreceive id report s h
      rcases hrun : (Drive.receive id report).run s with ⟨d, s'⟩
      rw [hrun] at hreceived
      rw [Drive.run_waiting hrun]
      cases d with
      | polling report' => exact ih hreceived
      | _ => exact hreceived
    cases d with
    | polling report =>
      have hpolled := hpoll report s h
      rcases hrun : (Drive.poll machine number task report).run s with ⟨d, s'⟩
      rw [hrun] at hpolled
      have hne : ∀ report', d ≠ .polling report' := by
        rintro report' rfl
        exact Serving.poll_ne_polling hrun
      rw [Drive.run_polling hrun hne]
      cases d with
      | polling report' => exact absurd rfl (hne report')
      | waiting id report' => exact hwaiting id report' s' hpolled
      | _ => exact hpolled
    | waiting id report => exact hwaiting id report s h
    | _ => exact h

namespace Session

/-- In a tidy session a host takes over an operation that polls no task. -/
theorem Tidy.takes_over {trace : Trace} (hs : s.Tidy) (hop : op.polledIds = [])
    (htasks : s'.core.tasks = (s.core.tasks.perform op).store) (htrace : trace.IsQuiet)
    (hfirings : ∀ id, trace.firings id = (s.core.tasks.perform op).trace.firings id)
    (hreports : Reports before op []) (hwakes : s'.wakes = s.wakes.deliverAll trace)
    (hrest : rest.IsIdle) (hnews : s'.trace = s.trace ++ before ++ s.wakes.shown trace ++ rest) :
    s.Undergoes s' op := by
  have hreports' : Reports (before ++ []) op [] := (List.append_nil before).symm ▸ hreports
  refine undergoes_of_shown htasks (fun handle id heq => ?_) (by rw [hop]; rfl) (fun _ _ => rfl)
    htrace hfirings (hs.foresees hop) hreports' hwakes hrest ?_
  · rw [heq] at hop
    cases hop
  · rw [hnews, List.append_nil, List.append_assoc, List.append_assoc, List.append_assoc]

/-- What is only shown, and of no poll, is no more than waking a waker that was never made. -/
theorem Tidy.idles (hs : s.Tidy) (htasks : s'.core.tasks = s.core.tasks)
    (hwakes : s'.wakes = s.wakes) (hrest : rest.IsIdle) (hnews : s'.trace = s.trace ++ rest) :
    ∃ op : Task.Operation, op.Spares ∧ s.Undergoes s' op := by
  have hnone : s.core.tasks.wakers[s.core.tasks.wakers.size]? = none :=
    Array.getElem?_eq_none le_rfl
  have hwake : s.core.tasks.perform (.wake s.core.tasks.wakers.size) =
      ⟨none, s.core.tasks, []⟩ := by
    simp only [Store.perform, Store.wake, Store.wakeWith, hnone, Task.Step.map]
  have hnews' : s'.trace = s.trace ++ [] ++ s.wakes.shown [] ++ rest := by
    rw [hnews, WakeRegistry.shown, List.append_nil, List.append_nil]
  exact ⟨.wake s.core.tasks.wakers.size, trivial,
    hs.takes_over rfl (by rw [hwake, htasks]) Trace.isQuiet_nil (fun _ => by rw [hwake])
      (reports_nil trivial) hwakes hrest hnews'⟩

/-- Others perform an operation on the tasks. -/
theorem Tidy.enter_perform (hs : s.Tidy) (hop : op.Spares) :
    s.Undergoes ((HostM.enter fun core : State => core.onTasks (·.perform op)).run s).2 op := by
  obtain ⟨s', hrun, hcore, hwakes⟩ :=
    HostM.enter_run (fun core : State => core.onTasks (·.perform op)) s
  have htrace := HostM.absorb_trace (s.core.tasks.perform op).trace
    { s with core := (s.core.onTasks (·.perform op)).2 }
  refine hs.takes_over hop.polledIds ?_ (Store.isQuiet_perform _ _) (fun _ => rfl)
    (reports_nil hop) ?_ Trace.isIdle_nil ?_
  · rw [hrun, hcore]
    rfl
  · rw [hrun, hwakes]
    rfl
  · rw [List.append_nil, List.append_nil]
    exact htrace

/-- A host has its core cancel or free a task. -/
theorem Tidy.call_undergoes (hs : s.Tidy) (hop : op.polledIds = []) (f : Store → Task.Step Unit)
    (hstore : (f s.core.tasks).store = (s.core.tasks.perform op).store)
    (htrace : (f s.core.tasks).trace = (s.core.tasks.perform op).trace)
    (hreports : Reports before op []) :
    ∃ s', (HostM.call fun core : State => core.onTasks f).run
        { s with trace := s.trace ++ before } = (.ok (), s') ∧ s.Undergoes s' op := by
  obtain ⟨s', hcall, htasks, hwakes⟩ := HostM.call_onTasks f (fun _ => [])
    { s with trace := s.trace ++ before }
  obtain ⟨rest, hrest, hnews⟩ := HostM.call_trace (fun core : State => core.onTasks f) (fun _ => [])
    { s with trace := s.trace ++ before }
  rw [hcall] at hnews
  refine ⟨s', hcall, hs.takes_over hop (htasks.trans hstore) (Store.isQuiet_perform _ _)
    (fun _ => rfl) hreports ?_ hrest ?_⟩
  · rw [hwakes, ← htrace]
  · rw [List.append_nil] at hnews
    rw [← htrace]
    exact hnews

end Session

theorem cancelTask_undergoes (hs : s.Tidy) (task : Nat) :
    ∃ s', (cancelTask machine task).run s = (.ok (), s') ∧ s.Undergoes s' (.cancel task) :=
  hs.call_undergoes rfl (·.cancel task) rfl rfl
    ⟨fun _ => rfl, fun _ _ => rfl, rfl, fun _ hmem => by cases List.mem_singleton.1 hmem⟩

theorem freeTask_undergoes (hs : s.Tidy) (task : Nat) :
    ∃ s', (freeTask machine task).run s = (.ok (), s') ∧ s.Undergoes s' (.free task) :=
  hs.call_undergoes rfl (·.free task) rfl rfl
    ⟨fun _ => rfl, fun _ _ => rfl, rfl, fun _ hmem => by cases List.mem_singleton.1 hmem⟩

theorem isIdle_complete (flavour : Flavour) (task : Nat) (core : State) :
    (core.complete true flavour task).1.trace.IsIdle := by
  have hlog (text : String) : Trace.IsIdle [.log .error text] :=
    Trace.isIdle_singleton (Observation.isIdle_log (by decide) text)
  rcases hcomplete : core.tasks.complete flavour task with ⟨collected, tasks⟩
  simp only [State.complete, hcomplete]
  cases collected with
  | value v => cases v <;> exact Trace.isIdle_nil
  | domain bytes => exact Trace.isIdle_nil
  | panicked message => exact hlog _
  | cancelled => exact Trace.isIdle_nil

theorem collect_undergoes {ε : Type} (hs : s.Tidy) (decode : Bytes → Except Wire.DecodeError ε)
    (flavour : Flavour) (task : Nat) :
    s.Undergoes ((collect machine decode flavour task).run s).2 (.complete flavour task) := by
  have hidle := isIdle_complete flavour task s.core
  obtain ⟨s', hcall, hcore, hwakes⟩ := HostM.callFallible_run decode
    (machine.complete flavour task) { s with trace := s.trace ++ [.complete flavour task] }
  obtain ⟨rest, hrest, hnews⟩ := HostM.callFallible_trace decode
    (machine.complete flavour task) { s with trace := s.trace ++ [.complete flavour task] }
  have hrun : ((collect machine decode flavour task).run s).2 = s' := congrArg Prod.snd hcall
  rw [hcall] at hnews
  rw [hrun]
  refine hs.takes_over rfl ?_ hidle.isQuiet (fun id => hidle.firings id) ?_ hwakes hrest hnews
  · rw [hcore]
    exact complete_tasks s.core flavour task
  · exact ⟨fun _ => rfl, fun _ _ => rfl, rfl, fun _ hmem => by cases List.mem_singleton.1 hmem⟩

end CoreBridge.Host
