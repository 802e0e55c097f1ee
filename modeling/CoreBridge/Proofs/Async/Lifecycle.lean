import CoreBridge.Proofs.Async.Driving
import CoreBridge.Proofs.Async.Mirror
import Mathlib

/-!
# The life of an asynchronous call

A call that is never polled enters the core not at all, and one whose start
fails no further. Any other call polls its task at least once, then completes
or cancels it, and frees it last. It completes the task exactly if it learnt
that the task is ready, from the answer of its last poll or from the
continuation of that poll, and cancels it exactly if that poll failed or the
call was dropped while it waited.
-/
namespace CoreBridge.Host

variable {σ ε : Type} {core : Core.EntryPoints σ}

/-- An asynchronous call in its host, and the record as it was when the call was
last polled, which is all that the call knows of it; nothing if it never was. -/
structure Course (σ ε : Type) where
  call : Call ε
  session : Session (Spied σ)
  seen : List Event := []

namespace Course

def record (c : Course σ ε) : List Event := c.session.core.record

/-- The host polls the future of the call. -/
def poll (core : Core.EntryPoints σ) (op : Operation σ ε) (number fuel : Nat)
    (c : Course σ ε) : Course σ ε :=
  let (call, session) := (c.call.poll (spy core) op.spied number fuel).run c.session
  { call, session, seen := session.core.record }

/-- What is recorded of the course does not bear on it. -/
theorem poll_unspied (core : Core.EntryPoints σ) (op : Operation σ ε) (number fuel : Nat)
    (c : Course σ ε) : (c.call.poll core op number fuel).run c.session.unspied =
      ((c.poll core op number fuel).call, (c.poll core op number fuel).session.unspied) :=
  Mirrors.callPoll core number op fuel c.call c.session

/-- The host drops the future of the call. -/
def drop (core : Core.EntryPoints σ) (c : Course σ ε) : Course σ ε :=
  let (call, session) := (c.call.drop (spy core)).run c.session
  { c with call, session }

theorem drop_unspied (core : Core.EntryPoints σ) (c : Course σ ε) :
    (c.call.drop core).run c.session.unspied =
      ((c.drop core).call, (c.drop core).session.unspied) :=
  Mirrors.callDrop core c.call c.session

/-- The continuation is invoked from elsewhere. -/
def fire (id : Nat) (result : Int) (c : Course σ ε) : Course σ ε :=
  let session := ((HostM.continuation id result).run c.session).2
  { c with session := { session with
      core := { session.core with record := session.core.record ++ [.fired id result] } } }

/-- Whether the host may be in this session after something else than the call
went on: the core may be in any state, but the record is that of this call, and
nothing but the continuation touches the channel that the call waits on. -/
def Allows (c : Course σ ε) (s : Session (Spied σ)) : Prop :=
  s.core.record = c.record ∧ ∀ task id report, c.call = .driving task (.waiting id report) →
    s.wakes.channels.get? id = c.session.wakes.channels.get? id

/-- Whether the future of the call may still be polled. -/
def IsLive (c : Course σ ε) : Prop :=
  match c.call with
  | .unstarted | .driving .. => True
  | .ended _ | .dropped => False

/-- What may come of a call, whatever the core answers, whenever the future is
polled or dropped and whatever happens in between. -/
inductive Reaches (core : Core.EntryPoints σ) (op : Operation σ ε) (number : Nat) :
    Course σ ε → Prop
  | made {s : Session (Spied σ)} : s.core.record = [] →
    Reaches core op number { call := .unstarted, session := s }
  | poll {c : Course σ ε} {fuel : Nat} : Reaches core op number c → c.IsLive → 0 < fuel →
    Reaches core op number (c.poll core op number fuel)
  | drop {c : Course σ ε} : Reaches core op number c → Reaches core op number (c.drop core)
  | fire {c : Course σ ε} (id : Nat) (result : Int) : Reaches core op number c →
    Reaches core op number (c.fire id result)
  | elsewhere {c : Course σ ε} {s : Session (Spied σ)} : Reaches core op number c → c.Allows s →
    Reaches core op number { c with session := s }

/-- These events begin with a successful start of the task, and `events` follow. -/
def Began (task : Nat) (events all : List Event) : Prop :=
  ∃ before status, all = before ++ .entered (.start status task) :: events ∧
    Event.entries before = [] ∧ Succeeded status

theorem Began.ne_nil {task : Nat} {events all : List Event} (h : Began task events all) :
    all ≠ [] := by
  obtain ⟨before, status, rfl, _⟩ := h
  simp

/-- The states that a call goes through, with the record of each. -/
inductive History (op : Operation σ ε) : Call ε → List Event → List Event → WakeRegistry → Prop
  | idle {call : Call ε} {seen record : List Event} {wakes : WakeRegistry} :
    call = .unstarted ∨ call = .dropped → seen = [] → Event.entries record = [] →
    History op call seen record wakes
  | refused {seen record : List Event} {wakes : WakeRegistry} {status : CallStatus} {task : Nat}
      {error : CallError ε} :
    seen ≠ [] → ¬ Succeeded status → Event.entries record = [.start status task] →
    History op (.ended (.error error)) seen record wakes
  | underway {seen later events : List Event} {wakes : WakeRegistry} {task : Nat} {d : Drive} :
    Began task events seen → Event.entries later = [] → d.Stands task events later wakes →
    (∀ report, d ≠ .finished report) → (∀ fault, d ≠ .failed fault) →
    History op (.driving task d) seen (seen ++ later) wakes
  | completed {seen all closing events : List Event} {wakes wakes' : WakeRegistry} {task : Nat}
      {report : PollReport} {result : Except (CallError ε) Core.Collection} :
    seen ≠ [] → Began task events all → Drive.Stands task events [] wakes' (.finished report) →
    Event.entries closing = [.complete op.flavour task, .freeTask task] →
    History op (.ended result) seen (all ++ closing) wakes
  | failed {seen all closing events : List Event} {wakes wakes' : WakeRegistry} {task : Nat}
      {fault : Fault} :
    seen ≠ [] → Began task events all → Drive.Stands task events [] wakes' (.failed fault) →
    Event.entries closing = [.cancel task, .freeTask task] →
    History op (.ended (.error (.fault fault))) seen (all ++ closing) wakes
  | abandoned {seen closing events : List Event} {wakes : WakeRegistry} {task id : Nat}
      {status : CallStatus} {answer : Int} {after : List Event} :
    Began task events seen → LastPoll task events id status answer after → Succeeded status →
    answer ≠ pollReady → Event.delivered? id after ≠ some pollReady →
    Event.entries closing = [.cancel task, .freeTask task] →
    History op .dropped seen (seen ++ closing) wakes

variable {op : Operation σ ε} {call : Call ε} {seen record : List Event} {wakes : WakeRegistry}

theorem stands_fire {task : Nat} {events later : List Event} {d : Drive}
    (h : d.Stands task events later wakes) (i : Nat) (result : Int) :
    d.Stands task events (later ++ [.fired i result]) (wakes.deliver i result).1 := by
  obtain ⟨id, status, answer, after, hlast, hd⟩ := h
  refine ⟨id, status, answer, after, hlast, ?_⟩
  cases d with
  | waiting j report =>
    obtain ⟨hid, hok, hanswer, hnone, hholds⟩ := hd
    refine ⟨hid, hok, hanswer, hnone, ?_⟩
    rw [← List.append_assoc, Event.delivered?_append, Event.delivered?_fired,
      Event.delivered?_nil, Option.or_none]
    exact hholds.deliver i result
  | _ => exact hd

/-- An invocation of the continuation is no step of the call. -/
theorem History.fire (h : History op call seen record wakes) (i : Nat) (result : Int) :
    History op call seen (record ++ [.fired i result]) (wakes.deliver i result).1 := by
  cases h with
  | idle hcall hseen hrecord => exact .idle hcall hseen (by simpa using hrecord)
  | refused hseen hstatus hrecord => exact .refused hseen hstatus (by simpa using hrecord)
  | underway hbegan hlater hstands hfinished hfailed =>
    rw [List.append_assoc]
    exact .underway hbegan (by simpa using hlater) (stands_fire hstands i result) hfinished hfailed
  | completed hseen hbegan hstands hclosing =>
    rw [List.append_assoc]
    exact .completed hseen hbegan hstands (by simpa using hclosing)
  | failed hseen hbegan hstands hclosing =>
    rw [List.append_assoc]
    exact .failed hseen hbegan hstands (by simpa using hclosing)
  | abandoned hbegan hlast hok hanswer hdelivered hclosing =>
    rw [List.append_assoc]
    exact .abandoned hbegan hlast hok hanswer hdelivered (by simpa using hclosing)

/-- Only the channel that the call waits on matters to it. -/
theorem History.congr {wakes' : WakeRegistry} (h : History op call seen record wakes)
    (hget : ∀ task id report, call = .driving task (.waiting id report) →
      wakes'.channels.get? id = wakes.channels.get? id) :
    History op call seen record wakes' := by
  cases h with
  | idle hcall hseen hrecord => exact .idle hcall hseen hrecord
  | refused hseen hstatus hrecord => exact .refused hseen hstatus hrecord
  | @underway _ _ _ _ task d hbegan hlater hstands hfinished hfailed =>
    refine .underway hbegan hlater ?_ hfinished hfailed
    obtain ⟨id, status, answer, after, hlast, hd⟩ := hstands
    refine ⟨id, status, answer, after, hlast, ?_⟩
    cases d with
    | waiting j report =>
      obtain ⟨rfl, hok, hanswer, hnone, hholds⟩ := hd
      exact ⟨rfl, hok, hanswer, hnone, hholds.congr (hget task j report rfl)⟩
    | _ => exact hd
  | completed hseen hbegan hstands hclosing => exact .completed hseen hbegan hstands hclosing
  | failed hseen hbegan hstands hclosing => exact .failed hseen hbegan hstands hclosing
  | abandoned hbegan hlast hok hanswer hdelivered hclosing =>
    exact .abandoned hbegan hlast hok hanswer hdelivered hclosing

/-- A call whose task has been driven for now is settled if the task is. -/
theorem settle_history (core : Core.EntryPoints σ) (op : Operation σ ε) {task : Nat}
    {events : List Event} {d : Drive} {s : Session (Spied σ)}
    (hbegan : Began task events s.core.record) (hstands : d.Stands task events [] s.wakes) :
    ∃ c s', (Call.settle (spy core) op.spied task d).run s = (c, s') ∧
      History op c s'.core.record s'.core.record s'.wakes := by
  obtain ⟨c, s', closing, hrun, hrecord, hd⟩ := Call.settle_run op.spied task d s
  refine ⟨c, s', hrun, ?_⟩
  have hunderway (hd : c = .driving task d ∧ closing = [] ∧ s' = s)
      (hfinished : ∀ report, d ≠ .finished report) (hfailed : ∀ fault, d ≠ .failed fault) :
      History op c s'.core.record s'.core.record s'.wakes := by
    obtain ⟨rfl, -, rfl⟩ := hd
    have hhere : History op (.driving task d) s'.core.record (s'.core.record ++ []) s'.wakes :=
      .underway hbegan rfl hstands hfinished hfailed
    rwa [List.append_nil] at hhere
  cases d with
  | polling report => exact hunderway hd nofun nofun
  | waiting id report => exact hunderway hd nofun nofun
  | finished report =>
    obtain ⟨⟨result, rfl⟩, hclosing⟩ := hd
    rw [hrecord]
    exact .completed (by simp [hbegan.ne_nil]) hbegan hstands hclosing
  | failed fault =>
    obtain ⟨rfl, hclosing⟩ := hd
    rw [hrecord]
    exact .failed (by simp [hbegan.ne_nil]) hbegan hstands hclosing

/-- Driving a task that was started and settling it. -/
theorem driven_history (op : Operation σ ε) {s : Session (Spied σ)} {number fuel task : Nat}
    {events : List Event} {d : Drive} (hbegan : Began task events s.core.record)
    (hdriven : Drive.Leaves task events s ((d.run (spy core) number task fuel).run s)) :
    ∃ call s', (d.run (spy core) number task fuel >>= Call.settle (spy core) op.spied task).run s =
        (call, s') ∧ History op call s'.core.record s'.core.record s'.wakes := by
  obtain ⟨⟨d', s₁⟩, hrun⟩ : ∃ driven, (d.run (spy core) number task fuel).run s = driven :=
    ⟨_, rfl⟩
  rw [hrun] at hdriven
  obtain ⟨more, hmore, hstands⟩ := hdriven
  have hbegan' : Began task (events ++ more) s₁.core.record := by
    obtain ⟨before, status, hall, hbefore, hok⟩ := hbegan
    refine ⟨before, status, ?_, hbefore, hok⟩
    rw [hmore, hall, List.append_assoc]
    rfl
  obtain ⟨call, s₂, hsettle, hhistory⟩ := settle_history core op hbegan' hstands
  refine ⟨call, s₂, ?_, hhistory⟩
  rw [StateT.run_bind, hrun]
  exact hsettle

theorem start_history {s : Session (Spied σ)} {number fuel : Nat}
    (hrecord : Event.entries s.core.record = []) (hfuel : 0 < fuel) :
    ∃ call s', (Call.unstarted.poll (spy core) op.spied number fuel).run s = (call, s') ∧
      History op call s'.core.record s'.core.record s'.wakes := by
  obtain ⟨s₁, hstart, hcore, _⟩ := HostM.callFallible_run op.spied.decode op.spied.start s
  -- The spied start answers what the start does.
  let reply := (op.start s.core.core).1
  have hreply : (op.spied.start s.core).1 = reply := rfl
  have hstarted : s₁.core.record = s.core.record ++
      .entered (.start reply.status reply.value) :: Event.ofTrace reply.trace := by
    rw [hcore]
    rfl
  rw [hreply] at hstart
  obtain ⟨hok, hclass⟩ | ⟨hnot, error, hclass⟩ := classify_cases op.spied.decode reply.status
  · rw [hclass] at hstart
    have hbegan : Began reply.value (Event.ofTrace reply.trace) s₁.core.record :=
      ⟨s.core.record, reply.status, hstarted, hrecord, hok⟩
    have hdriven : Drive.Leaves reply.value (Event.ofTrace reply.trace) s₁
        ((Drive.run (spy core) number reply.value fuel (.polling {})).run s₁) :=
      Drive.polling_leaves fuel s₁ _ {} (pends_of_entries (Event.entries_ofTrace _)) hfuel
    obtain ⟨call, s₂, hrun, hhistory⟩ := driven_history op hbegan hdriven
    refine ⟨call, s₂, ?_, hhistory⟩
    unfold Call.poll
    simp only [StateT.run_bind, hstart]
    exact hrun
  · rw [hclass] at hstart
    have hrefused : Event.entries s₁.core.record = [.start reply.status reply.value] := by
      simp [hstarted, hrecord]
    have hnonempty : s₁.core.record ≠ [] := by simp [hstarted]
    refine ⟨.ended (.error error), s₁, ?_, .refused hnonempty hnot hrefused⟩
    unfold Call.poll
    simp only [StateT.run_bind, hstart]
    rfl

theorem drive_history {s : Session (Spied σ)} {number fuel task : Nat} {d : Drive}
    (h : History op (.driving task d) seen s.core.record s.wakes) (hfuel : 0 < fuel) :
    ∃ call s', ((Call.driving task d).poll (spy core) op.spied number fuel).run s = (call, s') ∧
      History op call s'.core.record s'.core.record s'.wakes := by
  generalize hrecord : s.core.record = record at h
  cases h with
  | idle hcall => exact absurd hcall (by simp)
  | @underway _ later events _ _ _ hbegan hlater hstands hfinished hfailed =>
    have hbegan' : Began task (events ++ later) s.core.record := by
      obtain ⟨before, status, rfl, hbefore, hok⟩ := hbegan
      refine ⟨before, status, ?_, hbefore, hok⟩
      rw [hrecord, List.append_assoc]
      rfl
    refine driven_history op hbegan' ?_
    obtain ⟨id, status, answer, after, hlast, hd⟩ := hstands
    have hlast' : LastPoll task (events ++ later) id status answer (after ++ later) := by
      obtain ⟨⟨before, rfl, hbefore⟩, hafter⟩ := hlast
      exact ⟨⟨before, by simp, hbefore⟩, by simp [hafter, hlater]⟩
    obtain ⟨n, rfl⟩ := Nat.exists_eq_succ_of_ne_zero (Nat.ne_of_gt hfuel)
    cases d with
    | polling report =>
      obtain ⟨hok, hanswer, _⟩ := hd
      exact Drive.polling_leaves _ s _ report (hlast'.pends hok hanswer) hfuel
    | waiting i report =>
      obtain ⟨rfl, hok, hanswer, _, hholds⟩ := hd
      exact Drive.waiting_leaves hlast' hok hanswer hholds fun s report hfuel =>
        Drive.polling_leaves _ s _ report (hlast'.pends hok hanswer) hfuel
    | finished report => exact absurd rfl (hfinished report)
    | failed fault => exact absurd rfl (hfailed fault)

/-- Dropping a call that is being driven cancels and frees its task. -/
theorem drop_history (core : Core.EntryPoints σ) {s : Session (Spied σ)}
    (h : History op call seen s.core.record s.wakes) :
    ∃ call' s', (call.drop (spy core)).run s = (call', s') ∧
      History op call' seen s'.core.record s'.wakes := by
  cases call with
  | unstarted =>
    refine ⟨.dropped, s, rfl, ?_⟩
    generalize s.core.record = record at h
    cases h with
    | idle _ hseen hrecord => exact .idle (.inr rfl) hseen hrecord
  | ended result => exact ⟨.ended result, s, rfl, h⟩
  | dropped => exact ⟨.dropped, s, rfl, h⟩
  | driving task d =>
    obtain ⟨s₁, habandon, hcore⟩ : ∃ s₁, (d.abandon).run s = ((), s₁) ∧ s₁.core = s.core := by
      cases d <;> exact ⟨_, rfl, rfl⟩
    obtain ⟨s₂, closing, hgiveUp, hrecord, hclosing⟩ := Call.giveUp_run core task true s₁
    refine ⟨.dropped, s₂, ?_, ?_⟩
    · unfold Call.drop
      simp only [StateT.run_bind, habandon]
      dsimp only [Bind.bind]
      rw [hgiveUp]
      rfl
    · rw [hrecord, hcore]
      generalize s.core.record = record at h
      cases h with
      | idle hcall => exact absurd hcall (by simp)
      | @underway _ later _ _ _ _ hbegan hlater hstands hfinished hfailed =>
        rw [List.append_assoc]
        obtain ⟨id, status, answer, after, hlast, hok, hanswer, hdelivered⟩ :=
          hstands.unsettled hfinished hfailed
        have hentries : Event.entries (later ++ closing) = [.cancel task, .freeTask task] := by
          rw [Event.entries_append, hlater, hclosing]
          rfl
        exact .abandoned hbegan hlast hok hanswer hdelivered hentries

/-- In every course of a call its record is one of those listed. -/
theorem Reaches.history {number : Nat} {c : Course σ ε} (h : Reaches core op number c) :
    History op c.call c.seen c.record c.session.wakes := by
  induction h with
  | made hrecord => exact .idle (.inl rfl) rfl (by rw [record, hrecord]; rfl)
  | @poll c fuel _ hlive hfuel ih =>
    obtain ⟨call, session, seen⟩ := c
    have hpolled : ∃ call' s', (call.poll (spy core) op.spied number fuel).run session =
        (call', s') ∧ History op call' s'.core.record s'.core.record s'.wakes := by
      cases call with
      | unstarted =>
        refine start_history ?_ hfuel
        cases ih with
        | idle _ _ hrecord => exact hrecord
      | driving task d => exact drive_history ih hfuel
      | ended result => exact hlive.elim
      | dropped => exact hlive.elim
    obtain ⟨call', s', hrun, hhistory⟩ := hpolled
    simp only [Course.poll, hrun]
    exact hhistory
  | @drop c _ ih =>
    obtain ⟨call, session, seen⟩ := c
    obtain ⟨call', s', hrun, hhistory⟩ := drop_history core ih
    simp only [Course.drop, hrun]
    exact hhistory
  | fire id result _ ih => exact ih.fire id result
  | elsewhere _ hallows ih =>
    obtain ⟨hrecord, hget⟩ := hallows
    simp only [record, hrecord]
    exact ih.congr hget

/-- Where the last poll stands in a record. -/
theorem began_split {task id : Nat} {events all after : List Event} {status : CallStatus}
    {answer : Int} (hbegan : Began task events all)
    (hlast : LastPoll task events id status answer after) :
    ∃ startStatus polls before, Succeeded startStatus ∧
      all = before ++ .entered (.poll task id status answer) :: after ∧
      Event.entries before = .start startStatus task :: polls ∧
      ∀ entry ∈ polls, entry.Pends task := by
  obtain ⟨first, startStatus, rfl, hfirst, hok⟩ := hbegan
  obtain ⟨before, rfl, hpends⟩ := hlast.split
  refine ⟨startStatus, Event.entries before, first ++ .entered (.start startStatus task) :: before,
    hok, by simp, by simp [hfirst], ?_⟩
  intro entry hentry
  obtain ⟨event, hevent, heq⟩ := List.mem_filterMap.1 hentry
  cases event with
  | fired => exact nomatch heq
  | entered e =>
    obtain rfl := Option.some.inj heq
    exact hpends _ hevent

/-- The life of an asynchronous call, in every course of it. Not polled yet, or
dropped before its first poll, it enters the core not at all, and if its start
fails no further. Otherwise the entry points are the start, then polls of the
task, of which only the last may fail or learn that the task is ready, and then,
once the call is over, one completion or one cancellation and at last one
release. It is the completion if the last poll succeeded and its answer, or the
first continuation for it, was ready; it is the cancellation if the last poll
failed, or if the call was dropped before it learnt that the task is ready. As
long as neither is the case the call goes on. A call to a core that keeps no record
polls and drops alike. -/
theorem call_lifecycle {number : Nat} {c : Course σ ε} (h : Reaches core op number c) :
    ((∀ fuel, (c.call.poll core op number fuel).run c.session.unspied =
        ((c.poll core op number fuel).call, (c.poll core op number fuel).session.unspied)) ∧
      (c.call.drop core).run c.session.unspied =
        ((c.drop core).call, (c.drop core).session.unspied)) ∧
    ((c.seen = [] ∧ (c.call = .unstarted ∨ c.call = .dropped) ∧ Event.entries c.record = []) ∨
    c.seen ≠ [] ∧
    ((∃ status task error, ¬ Succeeded status ∧ c.call = .ended (.error error) ∧
      Event.entries c.record = [.start status task]) ∨
    ∃ startStatus task polls id status answer before after closing,
      c.record = before ++ .entered (.poll task id status answer) :: after ++ closing ∧
      Event.entries before = .start startStatus task :: polls ∧ Succeeded startStatus ∧
      (∀ entry ∈ polls, entry.Pends task) ∧ Event.entries after = [] ∧
      (((∃ d, c.call = .driving task d) ∧ Event.entries closing = [] ∨
          c.call = .dropped ∧ Event.entries closing = [.cancel task, .freeTask task]) ∧
        Succeeded status ∧ answer ≠ pollReady ∧ Event.delivered? id after ≠ some pollReady ∧
        c.seen = before ++ .entered (.poll task id status answer) :: after ∨
      (∃ result, c.call = .ended result) ∧
        Event.entries closing = [.complete op.flavour task, .freeTask task] ∧
        Succeeded status ∧ (answer = pollReady ∨ Event.delivered? id after = some pollReady) ∨
      (∃ fault, c.call = .ended (.error (.fault fault))) ∧
        Event.entries closing = [.cancel task, .freeTask task] ∧ ¬ Succeeded status))) := by
  refine ⟨⟨fun fuel => poll_unspied core op number fuel c, drop_unspied core c⟩, ?_⟩
  have hhistory := h.history
  generalize c.call = call, c.seen = seen, c.record = record, c.session.wakes = wakes
    at hhistory ⊢
  cases hhistory with
  | idle hcall hseen hrecord => exact .inl ⟨hseen, hcall, hrecord⟩
  | refused hseen hstatus hrecord =>
    exact .inr ⟨hseen, .inl ⟨_, _, _, hstatus, rfl, hrecord⟩⟩
  | underway hbegan hlater hstands hfinished hfailed =>
    refine .inr ⟨hbegan.ne_nil, .inr ?_⟩
    obtain ⟨id, status, answer, after, hlast, hstatus, hanswer, hdelivered⟩ :=
      hstands.unsettled hfinished hfailed
    obtain ⟨startStatus, polls, before, hok, rfl, hbefore, hpolls⟩ := began_split hbegan hlast
    exact ⟨startStatus, _, polls, id, status, answer, before, after, _, rfl, hbefore, hok, hpolls,
      hlast.last, .inl ⟨.inl ⟨⟨_, rfl⟩, hlater⟩, hstatus, hanswer, hdelivered, rfl⟩⟩
  | completed hseen hbegan hstands hclosing =>
    refine .inr ⟨hseen, .inr ?_⟩
    obtain ⟨id, status, answer, after, hlast, hready⟩ := hstands
    obtain ⟨startStatus, polls, before, hok, rfl, hbefore, hpolls⟩ := began_split hbegan hlast
    exact ⟨startStatus, _, polls, id, status, answer, before, after, _, rfl, hbefore, hok, hpolls,
      hlast.last, .inr (.inl ⟨⟨_, rfl⟩, hclosing, hready⟩)⟩
  | failed hseen hbegan hstands hclosing =>
    refine .inr ⟨hseen, .inr ?_⟩
    obtain ⟨id, status, answer, after, hlast, hnot⟩ := hstands
    obtain ⟨startStatus, polls, before, hok, rfl, hbefore, hpolls⟩ := began_split hbegan hlast
    exact ⟨startStatus, _, polls, id, status, answer, before, after, _, rfl, hbefore, hok, hpolls,
      hlast.last, .inr (.inr ⟨⟨_, rfl⟩, hclosing, hnot⟩)⟩
  | abandoned hbegan hlast hstatus hanswer hdelivered hclosing =>
    refine .inr ⟨hbegan.ne_nil, .inr ?_⟩
    obtain ⟨startStatus, polls, before, hok, rfl, hbefore, hpolls⟩ := began_split hbegan hlast
    exact ⟨startStatus, _, polls, _, _, _, before, _, _, rfl, hbefore, hok, hpolls, hlast.last,
      .inl ⟨.inr ⟨rfl, hclosing⟩, hstatus, hanswer, hdelivered, rfl⟩⟩

/-- The operation that starts a task which never ends. -/
def stalledOperation : Operation Core.State Unit where
  start s := s.onTasks (·.spawn .stalled)
  flavour := .void
  decode _ := .ok ()

/-- A call to it, not yet polled. -/
def idle : Course Core.State Unit where
  call := .unstarted
  session := { core := { core := {} } }

theorem call_lifecycle_stalled : ∃ task polls before closing,
    ((idle.poll Core.machine stalledOperation 0 1).drop Core.machine).record = before ++ closing ∧
      Event.entries before = .start {} task :: polls ∧ polls ≠ [] ∧
      Event.entries closing = [.cancel task, .freeTask task] := by
  have hidle : Reaches Core.machine stalledOperation 0 idle := .made rfl
  have hreaches : Reaches Core.machine stalledOperation 0
      ((idle.poll Core.machine stalledOperation 0 1).drop Core.machine) :=
    (hidle.poll trivial Nat.one_pos).drop
  have hdropped :
      ((idle.poll Core.machine stalledOperation 0 1).drop Core.machine).call = .dropped := by
    cbv
  have hentries : Event.entries
      ((idle.poll Core.machine stalledOperation 0 1).drop Core.machine).record =
        [.start {} 1, .poll 1 1 {} pollPending, .cancel 1, .freeTask 1] := by
    cbv
  generalize (idle.poll Core.machine stalledOperation 0 1).drop Core.machine = course
    at hreaches hdropped hentries ⊢
  obtain ⟨-, ⟨_, _, hnone⟩ | ⟨_, ⟨_, _, _, _, hended, _⟩ |
    ⟨startStatus, task, polls, id, status, answer, before, after, closing, hrecord, hbefore, _,
      _, hafter, hover⟩⟩⟩ := call_lifecycle hreaches
  · simp [hentries] at hnone
  · simp [hdropped] at hended
  · have hclosing : Event.entries closing = [.cancel task, .freeTask task] := by
      obtain ⟨⟨⟨_, hover⟩, _⟩ | ⟨_, hclosing⟩, _⟩ | ⟨⟨_, hover⟩, _⟩ | ⟨⟨_, hover⟩, _⟩ := hover
      · simp [hdropped] at hover
      · exact hclosing
      · simp [hdropped] at hover
      · simp [hdropped] at hover
    have hstart : startStatus = {} := by
      have hfirst : (Event.entries course.record).head? = some (.start startStatus task) := by
        rw [hrecord]
        simp [hbefore]
      rw [hentries] at hfirst
      exact (Entry.start.inj (Option.some.inj hfirst)).1.symm
    refine ⟨task, polls ++ [.poll task id status answer],
      before ++ .entered (.poll task id status answer) :: after, closing, hrecord, ?_, by simp,
      hclosing⟩
    simp [hbefore, hafter, hstart]

end Course
end CoreBridge.Host
