import CoreBridge.Proofs.Async.Standing

/-!
# A call answers what its future comes to

However often a future is pending, whenever its wakers are woken and whatever
else is done meanwhile, a call that runs it ends, if the wakers of the polls
that it waits for are woken at all, and with what the future ended with, or as
cancelled if its task was cancelled before.
-/
namespace CoreBridge.Host

open CoreBridge.Core CoreBridge.Task

/-! ## What is to be learnt -/

/-- What a caller is to learn of how a future ends, if that ends it. -/
def learnt? : Ending (Except Wire.Value Wire.Value) →
    Option (Except (CallError Wire.Value) Wire.Value)
  | .pending => none
  | .ready (.ok value) => some <|
    match Wire.encode value with
    | .ok _ => .ok value
    | .error reason =>
      .error (.fault (.nativePanic s!"failed to encode task result: {reason.message}"))
  | .ready (.error error) => some <|
    match Wire.encode error with
    | .ok _ => .error (.domain error)
    | .error reason =>
      .error (.fault (.nativePanic s!"failed to encode task error: {reason.message}"))
  | .panicked panic => some (.error (.fault
    (if panic.message = "" then .doubleFault else .nativePanic panic.message)))

/-- The future is pending `k` times and then ends, of which a caller that reads a
value of type `t` and an error of type `te` is to learn `expected`. -/
structure EndsAfter (schema : Wire.Schema) (t te : Wire.Ty) (k : Nat)
    (expected : Except (CallError Wire.Value) Wire.Value)
    (future : Future (Except Wire.Value Wire.Value)) : Prop where
  distinct : schema.IsDistinct
  pends : ∀ n < k, (future.onPoll n).ending = .pending
  ends : learnt? (future.onPoll k).ending = some expected
  value : ∀ v, (future.onPoll k).ending = .ready (.ok v) →
    v.HasType schema schema t ∧ v.IsWellFormed
  error : ∀ e, (future.onPoll k).ending = .ready (.error e) →
    e.HasType schema schema te ∧ e.IsWellFormed

variable {schema : Wire.Schema} {t te : Wire.Ty} {k : Nat}
  {expected : Except (CallError Wire.Value) Wire.Value}
  {future : Future (Except Wire.Value Wire.Value)}

theorem fits_lowerResult {result : Except Wire.Value Wire.Value} {value : TaskValue}
    (h : lowerResult result = .ok value) : value.fits .buffer := by
  unfold lowerResult at h
  split at h
  · split at h
    · obtain rfl := Except.ok.inj h
      rfl
    · cases h
  · split at h <;> cases h

/-- A result that was written to the wire is read as what is to be learnt of it. -/
theorem read_lowerResult (hschema : schema.IsDistinct) (result : Except Wire.Value Wire.Value)
    (hvalue : ∀ v, result = .ok v → v.HasType schema schema t ∧ v.IsWellFormed)
    (herror : ∀ e, result = .error e → e.HasType schema schema te ∧ e.IsWellFormed) :
    learnt? (.ready result) =
      some (readCollected schema t te (.ofResult (lowerResult result))) := by
  cases result with
  | ok value =>
    obtain ⟨ht, hv⟩ := hvalue value rfl
    cases hencode : Wire.encode value with
    | ok bytes =>
      have hdecode := Wire.Schema.decode_of_encode hschema ht hv hencode
      simp only [learnt?, lowerResult, hencode, Store.Collected.ofResult, readCollected,
        TaskValue.bytes, hdecode]
      rfl
    | error reason =>
      simp only [learnt?, lowerResult, hencode, Store.Collected.ofResult, readCollected]
      rw [textFault_append (by decide)]
  | error error =>
    obtain ⟨ht, hv⟩ := herror error rfl
    cases hencode : Wire.encode error with
    | ok bytes =>
      have hdecode := Wire.Schema.decode_of_encode hschema ht hv hencode
      simp only [learnt?, lowerResult, hencode, Store.Collected.ofResult, readCollected, hdecode]
    | error reason =>
      simp only [learnt?, lowerResult, hencode, Store.Collected.ofResult, readCollected]
      rw [textFault_append (by decide)]

theorem EndsAfter.comesTo (h : EndsAfter schema t te k expected future) :
    ∃ result, ComesTo schema t te k expected future.lowered result := by
  have hending (n : Nat) :
      (future.lowered.onPoll n).ending = (future.onPoll n).ending.map lowerResult := rfl
  have hpends : ∀ n < k, (future.lowered.onPoll n).ending = .pending := by
    intro n hn
    rw [hending, h.pends n hn]
    rfl
  have hends := h.ends
  cases hcase : (future.onPoll k).ending with
  | pending => simp [hcase, learnt?] at hends
  | ready result =>
    rw [hcase, read_lowerResult h.distinct result (fun v hv => h.value v (hv ▸ hcase))
      fun e he => h.error e (he ▸ hcase)] at hends
    exact ⟨lowerResult result, hpends, by rw [hending, hcase]; rfl, fun _ => fits_lowerResult,
      Option.some.inj hends⟩
  | panicked panic =>
    rw [hcase] at hends
    exact ⟨.error (.panic panic.message), hpends, by rw [hending, hcase]; rfl, nofun,
      Option.some.inj hends⟩

/-! ## Runs -/

namespace Serving

variable {result : TaskResult} {number task : Nat} {start : Session State}
  {decode : Bytes → Except Wire.DecodeError Wire.Value} {r v : Serving} {run : Nat → Serving}

/-- A call that has started its task stands as it should. -/
theorem invariant_begun (decode : Bytes → Except Wire.DecodeError Wire.Value)
    (future : Future (Except Wire.Value Wire.Value)) (hstart : start.Orderly) :
    (begun decode future start).Invariant schema t k expected future.lowered result
      start.core.tasks.nextHandle := by
  obtain ⟨s, hrun, hcore, hwakes⟩ :=
    HostM.callFallible_run decode (lowering decode future).start start
  have hsession : (begun decode future start).session = s := congrArg Prod.snd hrun
  have hfollows : start.Follows s (.spawn future.lowered) := by
    refine ⟨congrArg State.tasks hcore, ?_⟩
    rw [hwakes, WakeRegistry.nextId_deliverAll]
  have horderly : s.Orderly := hstart.follows hfollows fun _ _ heq => by cases heq
  refine ⟨hsession ▸ horderly, ?_, 0, Nat.zero_le k, ?_, Nat.zero_le _⟩
  · rw [hsession, hfollows.tasks, Store.nextHandle_perform]
    exact Nat.lt_succ_self _
  · refine ⟨{ future := some future.lowered }, ?_, LiveTask.runs_new future.lowered⟩
    rw [hsession, hfollows.tasks]
    simp only [Store.perform, Task.Step.map, Store.spawn, Table.get?_set, if_true]

/-- Whatever happens keeps the invariant. -/
theorem Invariant.reaches {lowered : Future TaskResult}
    (hcomes : ComesTo schema t te k expected lowered result)
    (hr : r.Invariant schema t k expected lowered result task)
    (h : Reaches (schema.decode te) number task r v) :
    v.Invariant schema t k expected lowered result task := by
  induction h with
  | refl => exact hr
  | tail _ hnext ih =>
    cases hnext with
    | advance => exact ih.advance hcomes
    | perform hadmits => exact ih.perform hadmits
    | elsewhere hkeeps => exact ih.elsewhere hkeeps

/-- A call that has taken enough steps has ended. -/
theorem Invariant.ended {lowered : Future TaskResult}
    (hr : r.Invariant schema t k expected lowered result task) (hsteps : 2 * k + 3 ≤ r.steps) :
    ∃ answer, r.stage = .ended answer := by
  have hstands := hr.stands
  cases hstage : r.stage with
  | driving d =>
    rw [hstage] at hstands
    exfalso
    cases d with
    | polling report =>
      obtain ⟨n, hn, _, hle⟩ := hstands
      omega
    | waiting id report =>
      obtain ⟨n, hn, _, hlt, _⟩ := hstands
      omega
    | finished report =>
      obtain ⟨_, hle⟩ := hstands
      omega
    | failed fault => exact hstands
  | collected answer =>
    rw [hstage] at hstands
    obtain ⟨_, hle⟩ := hstands
    omega
  | ended answer => exact ⟨answer, rfl⟩

/-- Whether the next step of the call gets it further: it does not wait, or the
waker of the poll that it waits for has been woken or its task cancelled. -/
def CanGoOn (r : Serving) : Prop := r.stage.waits = true → r.due = true

/-- A run in which the call is let go on, and the waker of each poll that it waits
for is woken or its task cancelled, in the end. -/
structure Fair (decode : Bytes → Except Wire.DecodeError Wire.Value) (number task : Nat)
    (run : Nat → Serving) : Prop where
  next : ∀ i, Next decode number task (run i) (run (i + 1))
  woken : ∀ i, ∃ j ≥ i, (run j).CanGoOn
  served : ∀ i, (run i).CanGoOn → ∃ j ≥ i, run (j + 1) = (run j).advance decode number task

theorem Next.steps_le (h : Next decode number task r v) : r.steps ≤ v.steps := by
  cases h with
  | advance =>
    rw [steps_advance]
    split <;> omega
  | perform => exact le_rfl
  | elsewhere => exact le_rfl

theorem CanGoOn.advance (h : r.CanGoOn) :
    (r.advance decode number task).steps = r.steps + 1 := by
  rw [steps_advance, if_neg]
  cases hwaits : r.stage.waits with
  | false => simp
  | true => simp [h hwaits]

/-- A call that can go on stays so until it does. -/
theorem CanGoOn.next (h : r.CanGoOn) (hnext : Next decode number task r v) :
    r.steps < v.steps ∨ v.CanGoOn ∧ r.steps = v.steps := by
  cases hnext with
  | advance => exact .inl (by rw [h.advance]; exact Nat.lt_succ_self _)
  | perform hadmits =>
    refine .inr ⟨fun hwaits => ?_, rfl⟩
    simp only [perform, h hwaits, Bool.true_or]
  | elsewhere hkeeps => exact .inr ⟨h, rfl⟩

namespace Fair

variable (h : Fair decode number task run)

include h

theorem reaches (i : Nat) : Reaches decode number task (run 0) (run i) := by
  induction i with
  | zero => exact .refl
  | succ i ih => exact ih.tail (h.next i)

theorem steps_mono : Monotone fun i => (run i).steps :=
  monotone_nat_of_le_succ fun i => (h.next i).steps_le

theorem exists_more {i d : Nat} (hgoes : (run i).CanGoOn)
    (hadvance : run (i + d + 1) = (run (i + d)).advance decode number task) :
    ∃ j, (run i).steps < (run j).steps := by
  -- By induction on the time until the call is let go on.
  induction d generalizing i with
  | zero => exact ⟨i + 1, by rw [hadvance]; exact hgoes.advance.ge⟩
  | succ d ih =>
    obtain hmore | ⟨hgoes', hsame⟩ := hgoes.next (h.next i)
    · exact ⟨i + 1, hmore⟩
    · rw [hsame]
      refine ih hgoes' ?_
      rwa [Nat.add_right_comm i 1 d]

/-- In a fair run the call takes ever more steps. -/
theorem exists_steps (n : Nat) : ∃ i, n ≤ (run i).steps := by
  induction n with
  | zero => exact ⟨0, Nat.zero_le _⟩
  | succ n ih =>
    obtain ⟨i, hi⟩ := ih
    obtain ⟨j, hj, hgoes⟩ := h.woken i
    obtain ⟨m, hm, hadvance⟩ := h.served j hgoes
    obtain ⟨d, rfl⟩ := Nat.exists_eq_add_of_le hm
    obtain ⟨l, hl⟩ := h.exists_more hgoes hadvance
    exact ⟨l, (hi.trans (h.steps_mono hj)).trans_lt hl⟩

end Fair

/-! ## The outcome -/

/-- A call is its future. A future is given that is pending `k` times and then ends,
and a core on which anything may have run before. The first poll of a call starts
the task of the future, and each poll takes steps of the call, between which others
may work on the tasks, wake wakers and cancel the task. However that goes, once the
call has ended, its caller reads what the future ended with, or that the task was
cancelled if it was before its outcome was collected, and the task is not live any
more. No poll stops between collecting the outcome and freeing the task, so what a poll
answers is such an end. And the call does end, if it is let go on and the waker of each
poll that answered pending is woken, whenever that is. -/
theorem call_eq_future (hends : EndsAfter schema t te k expected future) (hstart : start.Orderly)
    (number : Nat) :
    let task := start.core.tasks.nextHandle
    let decode := schema.decode te
    let operation := lowering decode future
    let first := begun decode future start
    (∀ fuel, (Call.poll machine operation number fuel .unstarted).run start =
      (Call.poll machine operation number fuel (first.stage.call task)).run first.session) ∧
    (∀ r, Reaches decode number task first r →
      (∀ fuel drive, r.stage = .driving drive → ∃ v, Leads decode number task r v ∧
        (Call.poll machine operation number fuel (.driving task drive)).run r.session =
          (v.stage.call task, v.session) ∧ ∀ answer, v.stage ≠ .collected answer) ∧
      (∀ answer, r.stage = .ended answer →
        (∀ host : Session State, ((liftAnswer schema t answer).run host).1 =
          if r.cancelled then .error .cancelled else expected) ∧
        r.session.core.tasks.isLive task = false)) ∧
    (∀ run, run 0 = first → Fair decode number task run →
      ∃ i answer, (run i).stage = .ended answer) := by
  intro task decode operation first
  obtain ⟨result, hcomes⟩ := hends.comesTo
  have hinvariant {r : Serving} (hr : Reaches decode number task first r) :
      r.Invariant schema t k expected future.lowered result task :=
    (invariant_begun decode future hstart).reaches hcomes hr
  refine ⟨fun fuel => callPoll_unstarted decode number future start fuel, ?_, ?_⟩
  · intro r hr
    constructor
    · intro fuel drive hstage
      exact callPoll_steps future fuel drive hstage
    · intro answer hstage
      have hstands := (hinvariant hr).stands
      rw [hstage] at hstands
      obtain ⟨hanswers, hnone⟩ := hstands
      exact ⟨hanswers, by simp only [Store.isLive, Table.contains, hnone, Option.isSome_none]⟩
  · -- A call that has not ended has taken fewer steps than any fair run comes to.
    intro run hrun hfair
    obtain ⟨i, hi⟩ := hfair.exists_steps (2 * k + 3)
    obtain ⟨answer, hanswer⟩ := (hinvariant (hrun ▸ hfair.reaches i)).ended hi
    exact ⟨i, answer, hanswer⟩

/-- Wakes itself in its first poll, hands on the waker of its second one, and ends
in its third with a value that has no bytes. -/
def patient : Future (Except Wire.Value Wire.Value) where
  onPoll
    | 0 => { wakes := [.own 0], ending := .pending }
    | 1 => { handsOn := true, ending := .pending }
    | _ => { ending := .ready (.ok (.record [])) }

/-- The types of what it ends with. -/
abbrev receipts : Wire.Schema := [("Receipt", .record [])]

/-- The run of a call to it in which the waker that was handed on is woken as soon as
the call waits for it. -/
def patientRun : Nat → Serving
  | 0 => begun (receipts.decode (.named "Receipt")) patient { core := {} }
  | i + 1 =>
    if i = 3 then (patientRun i).perform 1 (.wake 1)
    else (patientRun i).advance (receipts.decode (.named "Receipt")) 0 1

theorem endsAfter_patient :
    EndsAfter receipts (.named "Receipt") (.named "Receipt") 2 (.ok (.record [])) patient where
  distinct := by decide
  pends n hn := by
    obtain rfl | rfl : n = 0 ∨ n = 1 := by omega
    · rfl
    · rfl
  ends := rfl
  value v hv := by
    obtain rfl : Wire.Value.record [] = v := Except.ok.inj (Ending.ready.inj hv)
    exact ⟨⟨"Receipt", [], [], rfl, rfl, trivial⟩, trivial⟩
  error e he := by cases Ending.ready.inj he

theorem ended_patientRun (i : Nat) : ∃ answer, (patientRun (i + 8)).stage = .ended answer := by
  induction i with
  | zero => exact ⟨.ok (.buffer (.allocated ⟨0, [], 0⟩)), by cbv⟩
  | succ i ih =>
    obtain ⟨answer, hanswer⟩ := ih
    have hne : i + 8 ≠ 3 := by omega
    have hnext : patientRun (i + 1 + 8) =
        (patientRun (i + 8)).advance (receipts.decode (.named "Receipt")) 0 1 := if_neg hne
    refine ⟨answer, ?_⟩
    rw [hnext, advance, hanswer]
    rfl

theorem fair_patientRun : Fair (receipts.decode (.named "Receipt")) 0 1 patientRun where
  next i := by
    rw [patientRun]
    split
    · exact .perform ⟨nofun, nofun, nofun⟩
    · exact .advance _
  woken i := by
    obtain ⟨answer, hanswer⟩ := ended_patientRun i
    refine ⟨i + 8, Nat.le_add_right i 8, fun hwaits => ?_⟩
    rw [hanswer] at hwaits
    cases hwaits
  served i _ := by
    have hne : i + 4 ≠ 3 := by omega
    exact ⟨i + 4, Nat.le_add_right i 4, if_neg hne⟩

theorem cancelled_patientRun (i : Nat) : (patientRun i).cancelled = false := by
  induction i with
  | zero => rfl
  | succ i ih =>
    rw [patientRun]
    split
    · have hop : Task.Operation.wake 1 ≠ .cancel 1 := nofun
      exact (perform_cancelled hop).trans ih
    · exact ih

/-- The call to it ends with its value. -/
theorem call_eq_future_patient : ∃ i answer, (patientRun i).stage = .ended answer ∧
    (∀ host : Session State,
      ((liftAnswer receipts (.named "Receipt") answer).run host).1 = .ok (.record [])) ∧
    (patientRun i).session.core.tasks.isLive 1 = false := by
  have hstart : Session.Orderly { core := {} } := Session.orderly_initial {} rfl {}
  obtain ⟨_, hanswers, hends⟩ := call_eq_future endsAfter_patient hstart 0
  obtain ⟨i, answer, hanswer⟩ := hends patientRun rfl fair_patientRun
  obtain ⟨_, hread⟩ := hanswers (patientRun i) (fair_patientRun.reaches i)
  obtain ⟨hread, hdead⟩ := hread answer hanswer
  refine ⟨i, answer, hanswer, fun host => ?_, hdead⟩
  rw [hread, cancelled_patientRun]
  rfl

end Serving
end CoreBridge.Host
