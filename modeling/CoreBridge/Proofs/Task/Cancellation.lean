import CoreBridge.Proofs.Task.Private

/-!
# Cancelling a task that waits

A task whose last poll is still owed its continuation gets it when the task is
cancelled, once and with the data of that poll (`cancel_releases`). But a cancelled
task drops its future before it releases the poll, and a future that wakes its last
waker as it is dropped spends the continuation: it then says that the task may be
ready, and only otherwise that it is (`not_ready_on_cancel`).
-/
namespace CoreBridge.Task.Store

variable {s : Store} {handle w data : Nat} {x : Waker}

/-- A run that neither invokes the continuation nor gives it up leaves it owed. -/
theorem Owed.after (h : s.Owed handle w x) (hs : s.Sound) {ops : List Operation}
    (hops : ∀ op ∈ ops, ∀ handle, op ≠ .poll handle x.data)
    (hlatest : ∀ op ∈ ops, ¬ op.Supersedes handle)
    (hquiet : (s.traceOf ops).firings x.data = []) : (s.after ops).Owed handle w x := by
  induction ops generalizing s with
  | nil => exact h
  | cons op ops ih =>
    have hop := hops op List.mem_cons_self
    rw [Store.traceOf, Trace.firings_append, List.append_eq_nil_iff] at hquiet
    obtain ⟨hfirst, hrest⟩ := hquiet
    by_cases hrel : s.Releases handle w op
    · -- A release would have invoked the continuation.
      obtain ⟨_, hone⟩ := h.released hop hrel
      simp [hfirst] at hone
    · obtain ⟨hkept, _⟩ := h.kept hs hop (hlatest op List.mem_cons_self) hrel
      apply ih hkept (hs.perform op)
      · intro o ho
        exact hops o (List.mem_cons_of_mem op ho)
      · intro o ho
        exact hlatest o (List.mem_cons_of_mem op ho)
      · exact hrest

/-- What cancelling a task invokes of a poll whose data tells it apart, if the poll is
the last one of the task and nothing has come of it yet. -/
theorem cancel_firings (h : s.Unused data) (hs : s.Sound)
    (hpending : (s.poll handle data).value = pollPending) {later : List Operation}
    (hlater : ∀ op ∈ later, ∀ handle, op ≠ .poll handle data)
    (hlatest : ∀ op ∈ later, ¬ op.Supersedes handle)
    (hquiet : (s.traceOf (.poll handle data :: later)).firings data = []) {t : Store}
    (ht : s.after (.poll handle data :: later) = t) : (t.cancel handle).trace.firings data =
      [if s.wakers.size ∈ t.wakesOf (.cancel handle) then pollMaybeReady else pollReady] := by
  rw [traceOf, Trace.firings_append, List.append_eq_nil_iff] at hquiet
  obtain ⟨hpoll, hrest⟩ := hquiet
  have howed : (s.poll handle data).store.Owed handle s.wakers.size ⟨data, .armed⟩ := by
    obtain ⟨hready, _⟩ | ⟨_, ⟨_, _, hfire⟩ | ⟨_, howed, _⟩⟩ := poll_own h hs handle
    · exact absurd (hready.symm.trans hpending) (by decide)
    · -- The continuation was not due in the poll itself.
      exact absurd (hfire.symm.trans hpoll) (by decide)
    · exact howed
  have hsound : (s.poll handle data).store.Sound := hs.perform (.poll handle data)
  have hstill : t.Owed handle s.wakers.size ⟨data, .armed⟩ :=
    ht ▸ howed.after hsound hlater hlatest hrest
  exact hstill.cancelled

/-! ## Telling the polls apart -/

/-- The numbered run with each number replaced by the data of its poll, part by part. -/
theorem numbering (before : List Operation) (handle data : Nat) (later : List Operation) :
    let f := dataAt (before ++ .poll handle data :: later)
    (numbered before).map (·.relabel f) = before ∧ f before.length = data ∧
      (numberedFrom (before.length + 1) later).map (·.relabel f) = later := by
  intro f
  have hmap := map_relabel_numbered (before ++ .poll handle data :: later)
  rw [numbered_poll, List.map_append, List.map_cons] at hmap
  have hlength : ((numbered before).map (·.relabel f)).length = before.length := by
    simp [numbered]
  obtain ⟨hbefore, hrest⟩ := List.append_inj hmap hlength
  obtain ⟨hpoll, hlater⟩ := List.cons.inj hrest
  exact ⟨hbefore, (Operation.poll.inj hpoll).2, hlater⟩

/-- The store after a run is that after the numbered run, with each number replaced by
the data of its poll. -/
theorem after_numbered (ops : List Operation) :
    ({} : Store).after ops = (({} : Store).after (numbered ops)).relabel (dataAt ops) := by
  rw [← after_relabel, relabel_empty, map_relabel_numbered]

theorem firingsOf_cancel (ops : List Operation) (handle position : Nat) :
    firingsOf (ops ++ [.cancel handle]) position = firingsOf ops position ++
      ((({} : Store).after (numbered ops)).cancel handle).trace.firings position := by
  have hsplit : numbered (ops ++ [.cancel handle]) = numbered ops ++ [.cancel handle] := by
    simp [numbered, Operation.relabel]
  simp only [firingsOf, hsplit, traceOf_append, Trace.firings_append, traceOf, List.append_nil]
  rfl

theorem mem_of_firings {r : Int} {trace : Trace} (h : r ∈ trace.firings data) :
    .fired data r ∈ trace := by
  obtain ⟨o, ho, hfire⟩ := List.mem_filterMap.1 h
  cases o with
  | fired d result =>
    simp only [Observation.firing?, Option.ite_none_right_eq_some, Option.some.injEq] at hfire
    obtain ⟨rfl, rfl⟩ := hfire
    exact ho
  | _ => simp [Observation.firing?] at hfire

/-- Cancelling a task whose last poll answered pending and has not been followed by its
continuation yet invokes the continuation exactly once, with the data of that poll: with
the result ready, unless the future wakes the waker of that poll as it is dropped; then
with the result of that wake. -/
theorem cancel_releases (before : List Operation) (handle data : Nat) (later : List Operation)
    (hpending : ((({} : Store).after before).poll handle data).value = pollPending)
    (hlatest : ∀ op ∈ later, ¬ op.Supersedes handle)
    (howed : firingsOf (before ++ .poll handle data :: later) before.length = []) :
    let ops := before ++ .poll handle data :: later
    let s := ({} : Store).after ops
    let waker := (({} : Store).after before).wakers.size
    let result := if waker ∈ s.wakesOf (.cancel handle) then pollMaybeReady else pollReady
    firingsOf (ops ++ [.cancel handle]) before.length = [result] ∧
      .fired data result ∈ (s.cancel handle).trace := by
  intro ops s waker result
  obtain ⟨hbefore, hdata, hlater⟩ := numbering before handle data later
  let f := dataAt ops
  let first := ({} : Store).after (numbered before)
  let rest := numberedFrom (before.length + 1) later
  let t := ({} : Store).after (numbered ops)
  have hs : s = t.relabel f := after_numbered ops
  have hfirst : ({} : Store).after before = first.relabel f := by
    rw [← after_relabel, relabel_empty, hbefore]
  have hnumbered : numbered ops = numbered before ++ .poll handle before.length :: rest :=
    numbered_poll before handle data later
  have hfire : (t.cancel handle).trace.firings before.length = [result] := by
    have hunused : first.Unused before.length :=
      (unused_empty before.length).after fun op => numbered_ne before
    have hanswer : (first.poll handle before.length).value = pollPending := by
      rw [hfirst, ← hdata, relabel_poll] at hpending
      exact hpending
    have hsup : ∀ op ∈ rest, ¬ op.Supersedes handle := by
      intro op hop hsup
      apply hlatest (op.relabel f) _ ((supersedes_relabel op).2 hsup)
      rw [← hlater]
      exact List.mem_map_of_mem hop
    have hquiet :
        (first.traceOf (.poll handle before.length :: rest)).firings before.length = [] := by
      rw [firingsOf, hnumbered, traceOf_append, Trace.firings_append,
        List.append_eq_nil_iff] at howed
      exact howed.2
    have hstore : first.after (.poll handle before.length :: rest) = t := by
      rw [← after_append, ← hnumbered]
    have hcancel := cancel_firings hunused (sound_empty.after _) hanswer
      (fun op => numberedFrom_ne before.length later) hsup hquiet hstore
    have hwakes : t.wakesOf (.cancel handle) = s.wakesOf (.cancel handle) := by
      rw [hs]
      exact (wakesOf_relabel t (.cancel handle)).symm
    have hsize : first.wakers.size = waker := by
      simp only [waker, hfirst, relabel, Array.size_map]
    rwa [hwakes, hsize] at hcancel
  constructor
  · rw [firingsOf_cancel, howed, List.nil_append]
    exact hfire
  · have hmem : .fired before.length result ∈ (t.cancel handle).trace := by
      apply mem_of_firings
      rw [hfire]
      exact List.mem_singleton_self result
    have hshown : (s.cancel handle).trace = (t.cancel handle).trace.relabel f := by
      rw [hs, relabel_cancel]
      rfl
    rw [hshown]
    exact List.mem_map.2 ⟨_, hmem, congrArg (Observation.fired · result) hdata⟩

/-- Never ends, and wakes its last waker as it is dropped. -/
def parting : Future TaskResult :=
  { Future.stalled with onDrop := fun polls => [.own (polls - 1)] }

/-- Of two tasks that wait, the one that does not wake anything is released with the
result ready, whatever the other does before. -/
theorem cancel_releases_second :
    firingsOf [.spawn parting, .spawn .stalled, .poll 1 5, .poll 2 5, .cancel 1, .cancel 2] 3 =
      [pollReady] := by
  have hrelease := cancel_releases [.spawn parting, .spawn .stalled, .poll 1 5] 2 5 [.cancel 1]
    (by decide +kernel) (by simp [Operation.Supersedes]) (by decide +kernel)
  exact hrelease.1

/-- A poll that waits need not be released with the result ready. -/
theorem not_ready_on_cancel : ¬ ∀ (before : List Operation) (handle data : Nat)
    (later : List Operation),
    ((({} : Store).after before).poll handle data).value = pollPending →
      (∀ op ∈ later, ¬ op.Supersedes handle) →
      firingsOf (before ++ .poll handle data :: later) before.length = [] →
      firingsOf (before ++ .poll handle data :: later ++ [.cancel handle]) before.length =
        [pollReady] := by
  intro hclaim
  have hready := hclaim [.spawn parting] 1 7 [] (by decide +kernel) (by simp) (by decide +kernel)
  revert hready
  decide +kernel

end CoreBridge.Task.Store
