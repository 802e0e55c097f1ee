import CoreBridge.Proofs.Task.Tasks

/-!
# The continuation of a poll

A poll that answers ready never invokes the continuation. One that answers
pending owes it once: it is due at once if the poll's waker was woken meanwhile,
and otherwise when that waker is woken or the task cancelled, as long as the
task is not polled again or freed. The invariant is `Owed`: the waker of the
poll is armed and is the pending waker of its task and of no other; every other
waker with the poll's data would be spent (`Silent`), and there is none.
-/
namespace CoreBridge.Task

/-- Whether the operation polls a task again or frees it. -/
def Operation.Supersedes (handle : Nat) : Operation → Prop
  | .poll h _ | .free h => h = handle
  | _ => False

namespace Store

/-- What happens in a poll until the future's own part of it is over. -/
def turnTrace (s : Store) (handle data : Nat) : Trace :=
  match s.tasks.get? handle with
  | some task =>
    match task.runnable? with
    | some future =>
      ((s.supersede handle task).runTurn data { task with pending := none } future).trace
    | none => []
  | none => []

/-- Whether the operation is due to invoke the continuation of a pending poll of
the task, whose waker is `waker`. -/
def Releases (s : Store) (handle waker : Nat) (op : Operation) : Prop :=
  ¬ op.Supersedes handle ∧ (op = .cancel handle ∨ waker ∈ s.wakesOf op)

/-- Whether in a run the waker is woken or the task cancelled before the task is
polled again or freed. -/
def Released (s : Store) (handle waker : Nat) (ops : List Operation) : Prop :=
  ∃ earlier op rest, ops = earlier ++ op :: rest ∧
    (∀ o ∈ earlier, ¬ o.Supersedes handle) ∧ (s.after earlier).Releases handle waker op

/-- The waker `w`, which is `x`, stands for a continuation that the task owes. -/
structure Owed (s : Store) (handle w : Nat) (x : Waker) : Prop where
  marked : s.IsMarked w x
  armed : x.state = .armed
  pending : s.pending? handle = some w
  only : ∀ h, s.pending? h = some w → h = handle

variable {s : Store} {handle w data : Nat} {x : Waker}

theorem not_released_nil : ¬ s.Released handle w [] := by
  rintro ⟨earlier, op, rest, hops, _⟩
  simp at hops

theorem released_cons {op : Operation} {ops : List Operation} :
    s.Released handle w (op :: ops) ↔ s.Releases handle w op ∨
      ¬ op.Supersedes handle ∧ (s.perform op).store.Released handle w ops := by
  constructor
  · rintro ⟨earlier, o, rest, hops, hearlier, hrel⟩
    cases earlier with
    | nil =>
      obtain ⟨rfl, rfl⟩ := List.cons.inj hops
      exact .inl hrel
    | cons first earlier =>
      obtain ⟨rfl, rfl⟩ := List.cons.inj hops
      exact .inr ⟨hearlier op List.mem_cons_self, earlier, o, rest, rfl,
        fun o' ho' => hearlier o' (List.mem_cons_of_mem _ ho'), hrel⟩
  · rintro (hrel | ⟨hop, earlier, o, rest, rfl, hearlier, hrel⟩)
    · exact ⟨[], op, ops, rfl, by simp, hrel⟩
    · refine ⟨op :: earlier, o, rest, rfl, ?_, hrel⟩
      intro o' ho'
      obtain rfl | ho' := List.mem_cons.1 ho'
      · exact hop
      · exact hearlier o' ho'

/-! ## The poll itself -/

theorem supersede_unused (h : s.Unused data) (handle : Nat) (task : LiveTask) :
    (s.supersede handle task).Unused data := by
  unfold Unused
  rw [bare_supersede]
  exact h

/-- The future's own part of a poll wakes the poll's waker without invoking the
continuation. -/
theorem runTurn_own (h : s.Unused data) (task : LiveTask) (future : Future TaskResult) :
    let turn := future.onPoll task.wakers.size
    let named := WakerRef.named (task.wakers.push s.wakers.size) turn.wakes
    (s.runTurn data task future).store.IsMarked s.wakers.size
        ⟨data, if s.wakers.size ∈ named then .wokenDuringPoll else .polling⟩ ∧
      (s.runTurn data task future).trace.firings data = [] := by
  intro turn named
  have hnew : (s.withWaker data turn.handsOn).IsMarked s.wakers.size { data } :=
    isMarked_withWaker h.data_ne turn.handsOn
  obtain ⟨hmark, hfire⟩ := hnew.wakeAll (task.wakers.push s.wakers.size) turn.wakes
  rw [runTurn_eq]
  refine ⟨?_, by simpa [Waker.isArmed] using hfire⟩
  have hstate : (if s.wakers.size ∈ named then ({ data } : Waker).woken else { data }) =
      ⟨data, if s.wakers.size ∈ named then .wokenDuringPoll else .polling⟩ := by
    split <;> rfl
  exact hstate ▸ hmark

theorem turnTrace_firings (h : s.Unused data) (handle : Nat) :
    (s.turnTrace handle data).firings data = [] := by
  unfold turnTrace
  split
  · rename_i task _
    split
    · rename_i future _
      exact (runTurn_own (supersede_unused h handle task) { task with pending := none } future).2
    · rfl
  · rfl

/-- The future's own part of a poll comes first in it. -/
theorem turnTrace_append (s : Store) (handle data : Nat) :
    ∃ rest, (s.poll handle data).trace = s.turnTrace handle data ++ rest := by
  unfold turnTrace
  cases htask : s.tasks.get? handle with
  | none => exact ⟨_, rfl⟩
  | some task =>
    rw [poll_live htask]
    simp only
    cases task.runnable? with
    | none => exact ⟨[], rfl⟩
    | some future => exact ⟨_, rfl⟩

/-- The waker that a poll makes is pending for no other task. -/
theorem pending?_only (hs : s.Sound) {h : Nat}
    (hw : (s.poll handle data).store.pending? h = some s.wakers.size) : h = handle := by
  have hperform : (s.perform (.poll handle data)).store.pending? h = some s.wakers.size := hw
  obtain hbefore | ⟨_, ⟨data', hop⟩, _⟩ := pending?_of_perform hperform
  · exact absurd (hs.made h _ hbefore) (lt_irrefl _)
  · exact (Operation.poll.inj hop).1.symm

/-- Once the future has ended, the continuation of the poll that ended it is not owed. -/
theorem finish_own {state : WakerState} (h : s.IsMarked w ⟨data, state⟩) (handle : Nat)
    (task : LiveTask) (future : Future TaskResult) (result : TaskResult) :
    (s.finish handle w task future result).store.Silent data ∧
      (s.finish handle w task future result).trace.firings data = [] := by
  obtain ⟨hmark, hfire⟩ := h.finish handle w task future result
  simp only [if_true] at hmark hfire
  refine ⟨?_, by simpa [Waker.isArmed, Waker.disarm] using hfire⟩
  split at hmark
  · exact hmark.silent (Waker.woken_spent rfl)
  · exact hmark.silent rfl

/-- How a poll with data that no waker has yet ends: it answers ready and the
continuation is not invoked, then or later, or it answers pending and the
continuation has been invoked if the waker was woken, and is owed if not. -/
theorem poll_own (h : s.Unused data) (hs : s.Sound) (handle : Nat) :
    ((s.poll handle data).value = pollReady ∧ (s.poll handle data).store.Silent data ∧
        (s.poll handle data).trace.firings data = []) ∨
      ((s.poll handle data).value = pollPending ∧
        (s.wakers.size ∈ s.wakesOf (.poll handle data) ∧
            (s.poll handle data).store.Silent data ∧
            (s.poll handle data).trace.firings data = [pollMaybeReady] ∨
          s.wakers.size ∉ s.wakesOf (.poll handle data) ∧
            (s.poll handle data).store.Owed handle s.wakers.size ⟨data, .armed⟩ ∧
            (s.poll handle data).trace.firings data = [])) := by
  have honly : ∀ h, (s.poll handle data).store.pending? h = some s.wakers.size → h = handle :=
    fun _ => pending?_only hs
  have hanswer := s.poll_answer handle data
  cases htask : s.tasks.get? handle with
  | none =>
    rw [poll_unknown htask]
    exact .inl ⟨rfl, h.silent, rfl⟩
  | some task =>
    rw [poll_live htask] at honly hanswer ⊢
    rw [wakesOf_poll htask]
    have hsup := supersede_unused h handle task
    cases hrun : task.runnable? with
    | none => exact .inl ⟨rfl, hsup.silent, rfl⟩
    | some future =>
      rw [hrun] at honly hanswer
      simp only [pollFuture, size_supersede, wakesOfPoll] at honly hanswer ⊢
      obtain ⟨hmark, hfire⟩ := runTurn_own hsup { task with pending := none } future
      simp only [size_supersede] at hmark
      cases hending : (future.onPoll task.wakers.size).ending with
      | ready result =>
        obtain ⟨hstore, htrace⟩ := finish_own hmark handle _ future result
        exact .inl ⟨rfl, hstore, by simp only [settle, Trace.firings_append, hfire, htrace]; rfl⟩
      | panicked panic =>
        obtain ⟨hstore, htrace⟩ := finish_own hmark handle _ future _
        exact .inl ⟨rfl, hstore, by simp only [settle, Trace.firings_append, hfire, htrace]; rfl⟩
      | pending =>
        obtain ⟨hmark', hfire'⟩ := hmark.suspend handle s.wakers.size
          ((s.supersede handle task).runTurn data { task with pending := none } future).value
        simp only [if_true, true_and] at hmark' hfire'
        rw [hending] at honly hanswer
        refine .inr ⟨value_suspend .., ?_⟩
        simp only [wakesOfEnding, List.append_nil, Trace.firings_append, hfire, List.nil_append]
        by_cases hwoken : s.wakers.size ∈ WakerRef.named (task.wakers.push s.wakers.size)
            (future.onPoll task.wakers.size).wakes
        · rw [if_pos hwoken] at hmark' hfire'
          exact .inl ⟨hwoken, hmark'.silent rfl, hfire'⟩
        · rw [if_neg hwoken] at hmark' hfire'
          obtain ⟨hready, _⟩ | ⟨_, hpending, _⟩ := hanswer
          · exact absurd (hready.symm.trans (value_suspend ..)) (by decide)
          · exact .inr ⟨hwoken, ⟨hmark', rfl, hpending, honly⟩, hfire'⟩

/-! ## While the continuation is owed -/

theorem Owed.disarmedBy_iff (h : s.Owed handle w x) (op : Operation) :
    s.disarmedBy op = some w ↔ op.Supersedes handle := by
  cases op with
  | poll h' data => exact ⟨h.only h', fun heq => heq ▸ h.pending⟩
  | free h' => exact ⟨h.only h', fun heq => heq ▸ h.pending⟩
  | _ => simp [disarmedBy, Operation.Supersedes]

theorem Owed.releasedBy_iff (h : s.Owed handle w x) (op : Operation) :
    s.releasedBy op = some w ↔ op = .cancel handle := by
  cases op with
  | cancel h' =>
    simp only [releasedBy, Operation.cancel.injEq]
    exact ⟨h.only h', fun heq => heq ▸ h.pending⟩
  | _ => simp [releasedBy]

/-- Polling the task again or freeing it gives up the continuation. -/
theorem Owed.superseded (h : s.Owed handle w x) {op : Operation}
    (hop : ∀ handle, op ≠ .poll handle x.data) (hsup : op.Supersedes handle) :
    (s.perform op).store.Silent x.data ∧ (s.perform op).trace.firings x.data = [] := by
  obtain ⟨hmark, hfire⟩ := h.marked.perform hop
  have hdisarm := (h.disarmedBy_iff op).2 hsup
  have hrelease : s.releasedBy op ≠ some w := by
    intro heq
    obtain rfl := (h.releasedBy_iff op).1 heq
    exact hsup
  simp only [hdisarm, hrelease, if_true, if_false, false_and] at hmark hfire
  refine ⟨?_, by simpa [Waker.isArmed, Waker.disarm] using hfire⟩
  split at hmark
  · exact Waker.woken_data _ ▸ hmark.silent (Waker.woken_spent rfl)
  · exact hmark.silent rfl

/-- Waking the waker or cancelling the task invokes the continuation. -/
theorem Owed.released (h : s.Owed handle w x) {op : Operation}
    (hop : ∀ handle, op ≠ .poll handle x.data) (hrel : s.Releases handle w op) :
    (s.perform op).store.Silent x.data ∧
      ((s.perform op).trace.firings x.data).length = 1 := by
  obtain ⟨hsup, hby⟩ := hrel
  obtain ⟨hmark, hfire⟩ := h.marked.perform hop
  have harmed : x.isArmed = true := by simp [Waker.isArmed, h.armed]
  have hspent : x.woken.state = .spent := by simp [Waker.woken, h.armed]
  have hdisarm : s.disarmedBy op ≠ some w := fun heq => hsup ((h.disarmedBy_iff op).1 heq)
  simp only [hdisarm, if_false] at hmark hfire
  by_cases hwoken : w ∈ s.wakesOf op
  · simp only [hwoken, if_true, Waker.woken_woken, ite_self] at hmark
    exact ⟨Waker.woken_data x ▸ hmark.silent hspent, by simp [hfire, hwoken, harmed]⟩
  · obtain hcancel | hmem := hby
    · have hreleased := (h.releasedBy_iff op).2 hcancel
      simp only [hwoken, hreleased, if_true, if_false] at hmark
      exact ⟨Waker.woken_data x ▸ hmark.silent hspent,
        by simp [hfire, hwoken, hreleased, harmed]⟩
    · exact absurd hmem hwoken

/-- Any other operation leaves the continuation owed. -/
theorem Owed.kept (h : s.Owed handle w x) (hs : s.Sound) {op : Operation}
    (hop : ∀ handle, op ≠ .poll handle x.data) (hsup : ¬ op.Supersedes handle)
    (hrel : ¬ s.Releases handle w op) :
    (s.perform op).store.Owed handle w x ∧ (s.perform op).trace.firings x.data = [] := by
  obtain ⟨hmark, hfire⟩ := h.marked.perform hop
  have hdisarm : s.disarmedBy op ≠ some w := fun heq => hsup ((h.disarmedBy_iff op).1 heq)
  have hcancel : op ≠ .cancel handle := fun heq => hrel ⟨hsup, .inl heq⟩
  have hwoken : w ∉ s.wakesOf op := fun hmem => hrel ⟨hsup, .inr hmem⟩
  simp only [hdisarm, h.releasedBy_iff op, hcancel, hwoken, if_false, false_and,
    List.append_nil] at hmark hfire
  refine ⟨⟨hmark, h.armed, ?_, ?_⟩, hfire⟩
  · refine hs.pending?_perform h.pending ?_ hcancel ?_
    · rintro data rfl
      exact hsup rfl
    · rintro rfl
      exact hsup rfl
  · intro h' hw
    obtain hbefore | ⟨hnew, _⟩ := pending?_of_perform hw
    · exact h.only h' hbefore
    · exact absurd (hs.made handle w h.pending) (hnew ▸ lt_irrefl _)

/-! ## Runs -/

theorem Sound.after (hs : s.Sound) (ops : List Operation) : (s.after ops).Sound := by
  induction ops generalizing s with
  | nil => exact hs
  | cons op ops ih => exact ih (hs.perform op)

theorem Unused.after (h : s.Unused data) {ops : List Operation}
    (hops : ∀ op ∈ ops, ∀ handle, op ≠ .poll handle data) : (s.after ops).Unused data := by
  induction ops generalizing s with
  | nil => exact h
  | cons op ops ih =>
    exact ih (h.perform (hops op List.mem_cons_self))
      fun o ho => hops o (List.mem_cons_of_mem _ ho)

theorem Silent.traceOf (h : s.Silent data) {ops : List Operation}
    (hops : ∀ op ∈ ops, ∀ handle, op ≠ .poll handle data) :
    (s.traceOf ops).firings data = [] := by
  induction ops generalizing s with
  | nil => rfl
  | cons op ops ih =>
    obtain ⟨hstore, htrace⟩ := h.perform (hops op List.mem_cons_self)
    rw [Store.traceOf, Trace.firings_append, htrace,
      ih hstore fun o ho => hops o (List.mem_cons_of_mem _ ho)]
    rfl

/-- A run from a store that owes the continuation invokes it at most once, and
exactly if it is released. -/
theorem Owed.traceOf (h : s.Owed handle w x) (hs : s.Sound) {ops : List Operation}
    (hops : ∀ op ∈ ops, ∀ handle, op ≠ .poll handle x.data) :
    ((s.traceOf ops).firings x.data).length ≤ 1 ∧
      (((s.traceOf ops).firings x.data).length = 1 ↔ s.Released handle w ops) := by
  induction ops generalizing s with
  | nil => exact ⟨Nat.zero_le 1, by simp [Store.traceOf, not_released_nil]⟩
  | cons op ops ih =>
    have hop := hops op List.mem_cons_self
    have hrest := fun o ho => hops o (List.mem_cons_of_mem op ho)
    rw [Store.traceOf, Trace.firings_append, released_cons]
    by_cases hrel : s.Releases handle w op
    · obtain ⟨hstore, htrace⟩ := h.released hop hrel
      rw [hstore.traceOf hrest, List.append_nil, htrace]
      exact ⟨le_rfl, by simp [hrel]⟩
    · by_cases hsup : op.Supersedes handle
      · obtain ⟨hstore, htrace⟩ := h.superseded hop hsup
        rw [hstore.traceOf hrest, htrace]
        exact ⟨Nat.zero_le 1, by simp [hrel, hsup]⟩
      · obtain ⟨hstore, htrace⟩ := h.kept hs hop hsup hrel
        rw [htrace, List.nil_append]
        simpa [hrel, hsup] using ih hstore (hs.perform op) hrest

/-- The law for a poll whose data tells it apart from every other one. -/
theorem poll_count (h : s.Unused data) (hs : s.Sound) (handle : Nat) {later : List Operation}
    (hlater : ∀ op ∈ later, ∀ handle, op ≠ .poll handle data) :
    let answer := (s.poll handle data).value
    let count := ((s.traceOf (.poll handle data :: later)).firings data).length
    answer = pollReady ∧ count = 0 ∨
      answer = pollPending ∧ count ≤ 1 ∧
        (count = 1 ↔ s.wakers.size ∈ s.wakesOf (.poll handle data) ∨
          (s.poll handle data).store.Released handle s.wakers.size later) := by
  intro answer count
  have hcount : count = ((s.poll handle data).trace.firings data).length +
      (((s.poll handle data).store.traceOf later).firings data).length := by
    simp only [count, Store.traceOf, Trace.firings_append, List.length_append]
    rfl
  have hsound : (s.poll handle data).store.Sound := hs.perform (.poll handle data)
  obtain ⟨hready, hsilent, hfire⟩ | ⟨hpending, ⟨hwoken, hsilent, hfire⟩ | ⟨hwoken, howed, hfire⟩⟩ :=
    poll_own h hs handle
  · rw [hfire, hsilent.traceOf hlater] at hcount
    exact .inl ⟨hready, hcount⟩
  · rw [hfire, hsilent.traceOf hlater] at hcount
    exact .inr ⟨hpending, hcount.le, iff_of_true hcount (.inl hwoken)⟩
  · obtain ⟨hle, hiff⟩ := howed.traceOf hsound hlater
    rw [hfire, List.length_nil, Nat.zero_add] at hcount
    refine .inr ⟨hpending, hcount ▸ hle, ?_⟩
    rw [hcount, hiff]
    exact (or_iff_right hwoken).symm

/-! ## Other data -/

variable {f : Nat → Nat}

theorem supersedes_relabel (op : Operation) :
    (op.relabel f).Supersedes handle ↔ op.Supersedes handle := by cases op <;> rfl

theorem relabel_eq_cancel (op : Operation) :
    op.relabel f = .cancel handle ↔ op = .cancel handle := by
  cases op <;> simp [Operation.relabel]

theorem wakesOf_relabel (s : Store) (op : Operation) :
    (s.relabel f).wakesOf (op.relabel f) = s.wakesOf op := by
  have htasks : (s.relabel f).tasks = s.tasks := rfl
  have hsize : (s.relabel f).wakers.size = s.wakers.size := Array.size_map
  cases op with
  | poll handle data => simp only [Operation.relabel, wakesOf, wakesOfPoll, htasks, hsize]
  | _ => rfl

theorem released_relabel (s : Store) (ops : List Operation) :
    (s.relabel f).Released handle w (ops.map (·.relabel f)) ↔ s.Released handle w ops := by
  induction ops generalizing s with
  | nil => exact iff_of_false not_released_nil not_released_nil
  | cons op ops ih =>
    have hperform : ((s.relabel f).perform (op.relabel f)).store =
        (s.perform op).store.relabel f := congrArg Step.store (relabel_perform f s op)
    rw [List.map_cons, released_cons, released_cons, hperform, ih]
    simp only [Releases, supersedes_relabel, relabel_eq_cancel, wakesOf_relabel]

/-! ## The law -/

theorem eq_of_relabel_poll {op : Operation} {i p : Nat}
    (h : op.relabel (fun _ => i) = .poll handle p) : i = p := by
  cases op with
  | poll handle data => exact (Operation.poll.inj h).2
  | _ => exact nomatch h

/-- The operations numbered so that the first has number `first`. -/
def numberedFrom (first : Nat) (ops : List Operation) : List Operation :=
  ops.mapIdx fun i op => op.relabel fun _ => first + i

theorem numbered_poll (before : List Operation) (handle data : Nat) (later : List Operation) :
    numbered (before ++ .poll handle data :: later) =
      numbered before ++ .poll handle before.length :: numberedFrom (before.length + 1) later := by
  have hnumber (i : Nat) : i + 1 + before.length = before.length + 1 + i := by omega
  unfold numbered numberedFrom
  rw [List.mapIdx_append, List.mapIdx_cons]
  simp only [Nat.zero_add, hnumber]
  rfl

theorem numbered_ne (ops : List Operation) {op : Operation} (hop : op ∈ numbered ops)
    (handle : Nat) : op ≠ .poll handle ops.length := by
  obtain ⟨i, hi, rfl⟩ := List.mem_mapIdx.1 hop
  intro heq
  exact absurd (eq_of_relabel_poll heq) (Nat.ne_of_lt hi)

theorem numberedFrom_ne (p : Nat) (ops : List Operation) {op : Operation}
    (hop : op ∈ numberedFrom (p + 1) ops) (handle : Nat) : op ≠ .poll handle p := by
  obtain ⟨i, _, rfl⟩ := List.mem_mapIdx.1 hop
  intro heq
  have := eq_of_relabel_poll heq
  omega

theorem unused_empty (data : Nat) : ({} : Store).Unused data := by
  intro y hy
  simp [bare] at hy

/-- The results with which a run from the empty store invokes the continuation
on account of the poll at a position. -/
def firingsOf (ops : List Operation) (position : Nat) : List Int :=
  (({} : Store).traceOf (numbered ops)).firings position

/-- The continuation law. In every run from the empty store, with any futures,
and for every poll of it: the continuation is invoked with the data of that
poll, and not before the future's own part of the poll is over; never if the
poll answered ready; and if it answered pending, at most once, and exactly once
if the poll's waker (whose number is that of the wakers before it) was woken
during the poll, or was woken or the task cancelled later, before the task was
polled again or freed. -/
theorem continuation_law (before : List Operation) (handle data : Nat) (later : List Operation) :
    let ops := before ++ .poll handle data :: later
    let position := before.length
    let s := ({} : Store).after before
    let answer := (s.poll handle data).value
    let count := (firingsOf ops position).length
    ({} : Store).traceOf ops = (({} : Store).traceOf (numbered ops)).relabel (dataAt ops) ∧
      dataAt ops position = data ∧
      (∃ rest, ({} : Store).traceOf (numbered ops) = ({} : Store).traceOf (numbered before) ++
          (({} : Store).after (numbered before)).turnTrace handle position ++ rest ∧
        (({} : Store).traceOf (numbered before)).firings position = [] ∧
        ((({} : Store).after (numbered before)).turnTrace handle position).firings position = []) ∧
      (answer = pollReady ∧ count = 0 ∨
        answer = pollPending ∧ count ≤ 1 ∧
          (count = 1 ↔ s.wakers.size ∈ s.wakesOf (.poll handle data) ∨
            (s.poll handle data).store.Released handle s.wakers.size later)) := by
  intro ops position s answer count
  -- The law is proved of the numbered run and read back through `dataAt`.
  have hsplit : numbered ops = numbered before ++ .poll handle position ::
      numberedFrom (position + 1) later := numbered_poll before handle data later
  have hmap := map_relabel_numbered ops
  rw [hsplit, List.map_append, List.map_cons] at hmap
  have hlength : ((numbered before).map (·.relabel (dataAt ops))).length = before.length := by
    simp [numbered]
  obtain ⟨hbefore, hrest⟩ := List.append_inj hmap hlength
  obtain ⟨hpoll, hlater⟩ := List.cons.inj hrest
  have hdata : dataAt ops position = data := (Operation.poll.inj hpoll).2
  let s₁ := ({} : Store).after (numbered before)
  have hstore : s₁.relabel (dataAt ops) = s := by
    rw [← after_relabel, hbefore, relabel_empty]
  have hstep : s.poll handle data = (s₁.poll handle position).relabel (dataAt ops) := by
    rw [← hstore, ← relabel_poll, hdata]
  have hsize : s.wakers.size = s₁.wakers.size := by
    rw [← hstore]
    exact Array.size_map
  have hwakes : s.wakesOf (.poll handle data) = s₁.wakesOf (.poll handle position) := by
    rw [← hstore, ← hpoll]
    exact wakesOf_relabel s₁ _
  have hunused : s₁.Unused position := (unused_empty position).after fun op => numbered_ne before
  have hfirst : (({} : Store).traceOf (numbered before)).firings position = [] :=
    (unused_empty position).silent.traceOf fun op => numbered_ne before
  have htrace : ({} : Store).traceOf (numbered ops) = ({} : Store).traceOf (numbered before) ++
      s₁.traceOf (.poll handle position :: numberedFrom (position + 1) later) := by
    rw [hsplit, traceOf_append]
  have hcount : count = ((s₁.traceOf
      (.poll handle position :: numberedFrom (position + 1) later)).firings position).length := by
    simp only [count, firingsOf, htrace, Trace.firings_append, hfirst, List.nil_append]
  refine ⟨traceOf_numbered ops, hdata, ?_, ?_⟩
  · obtain ⟨rest, hturn⟩ := s₁.turnTrace_append handle position
    refine ⟨rest ++ (s₁.poll handle position).store.traceOf (numberedFrom (position + 1) later),
      ?_, hfirst, turnTrace_firings hunused handle⟩
    rw [htrace, traceOf]
    simp only [perform, Step.map, hturn, List.append_assoc]
    rfl
  · have hlaw := poll_count hunused (sound_empty.after _) handle
      fun op => numberedFrom_ne position later
    simp only [← hcount] at hlaw
    rw [← released_relabel, hlater] at hlaw
    simp only [answer, hstep, hsize, hwakes]
    exact hlaw

end Store
end CoreBridge.Task
