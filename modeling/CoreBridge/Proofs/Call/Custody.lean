import CoreBridge.Proofs.Async.Mirror
import CoreBridge.Proofs.Call.Transparency

/-!
# Every buffer is accounted for

A core numbers its allocations, so it never gives the same buffer twice. What a
host does with a buffer that it was given is then told by a ledger: `audit`
writes down what an entry point gives and what passes to it, and the trace shows
what is given back. A step of the host balances if it turns the buffers that it
takes into the ones that it leaves and accounts for the others; so does what is
built of such steps, and so does a host that does nothing else.
-/
namespace CoreBridge

/-- The number of the allocation behind a buffer. -/
def Buffer.id? : Buffer → Option Nat
  | null => none
  | allocated a => some a.id

/-- The buffers that a reply gives, in its value and in its status. -/
def Reply.given {α : Type} (carried : α → Buffer) (reply : Reply α) : List Buffer :=
  (carried reply.value).owned ++ reply.status.payload.owned

namespace Core

open Host (Succeeded)

/-- The buffer that is returned, which is null if something else is. -/
def Returned.carried : Returned → Buffer
  | .buffer b => b
  | _ => .null

def Collection.carried : Collection → Buffer
  | .buffer b => b
  | _ => .null

variable {α : Type} {carried : α → Buffer} {heap heap' after : Heap} {reply : Reply α}

/-- What a reply gives is new. One that reports a failure has no value to give. -/
structure Supplies (carried : α → Buffer) (heap : Heap) (reply : Reply α) (after : Heap) :
    Prop where
  issued_le : heap.issued ≤ after.issued
  isNew : ∀ b ∈ reply.given carried, ∃ n, b.id? = some n ∧ heap.issued ≤ n ∧ n < after.issued
  distinct : ((reply.given carried).map Buffer.id?).Nodup
  of_failed : ¬ Succeeded reply.status → carried reply.value = .null
  freed : reply.trace.freed = []

namespace Supplies

theorem mono (h : Supplies carried heap' reply after) (hle : heap.issued ≤ heap'.issued) :
    Supplies carried heap reply after where
  issued_le := hle.trans h.issued_le
  isNew b hb := by
    obtain ⟨n, hid, hlow, hhigh⟩ := h.isNew b hb
    exact ⟨n, hid, hle.trans hlow, hhigh⟩
  distinct := h.distinct
  of_failed := h.of_failed
  freed := h.freed

/-- A reply that reports a success and gives at most a new value. -/
theorem of_value {value : α} {trace : Trace} (hle : heap.issued ≤ after.issued)
    (hnew : ∀ a, carried value = .allocated a → heap.issued ≤ a.id ∧ a.id < after.issued)
    (hfreed : trace.freed = []) : Supplies carried heap { value, trace } after := by
  have hgiven : Reply.given carried { value, trace } = (carried value).owned := List.append_nil _
  refine ⟨hle, ?_, ?_, fun hfailed => absurd rfl hfailed, hfreed⟩
  · rw [hgiven]
    cases hvalue : carried value with
    | null => exact fun b hb => absurd hb List.not_mem_nil
    | allocated a =>
      intro b hb
      obtain rfl : b = .allocated a := List.mem_singleton.1 hb
      exact ⟨a.id, rfl, hnew a hvalue⟩
  · rw [hgiven]
    cases carried value with
    | null => exact List.nodup_nil
    | allocated a => exact List.nodup_singleton _

/-- A reply that gives at most a payload, in an allocation of its own. -/
theorem of_payload {fallback : α} {trace : Trace} (code : Int) (payload : Bytes)
    (hfallback : carried fallback = .null) (hfreed : trace.freed = []) :
    Supplies carried heap
      { value := fallback, status := ⟨code, (payloadBuffer heap payload).1⟩, trace }
      (payloadBuffer heap payload).2 := by
  have hgiven (status : CallStatus) : Reply.given carried { value := fallback, status, trace } =
      status.payload.owned := by
    rw [Reply.given, hfallback]
    rfl
  rw [payloadBuffer_eq]
  split_ifs
  · refine ⟨le_rfl, ?_, ?_, fun _ => hfallback, hfreed⟩
    · rw [hgiven]
      exact fun b hb => absurd hb List.not_mem_nil
    · rw [hgiven]
      exact List.nodup_nil
  · refine ⟨Nat.le_succ _, ?_, ?_, fun _ => hfallback, hfreed⟩
    · rw [hgiven]
      intro b hb
      obtain rfl := List.mem_singleton.1 hb
      exact ⟨heap.issued, rfl, le_rfl, Nat.lt_succ_self _⟩
    · rw [hgiven]
      exact List.nodup_singleton _

end Supplies

/-! ## The entry points of this library -/

/-- A body that returns no buffer but a new one, and gives none back. -/
structure Body.IsProper (carried : α → Buffer) (body : Body α) : Prop where
  issued_le : ∀ s, s.heap.issued ≤ (body s).2.2.heap.issued
  isNew : ∀ s value a, (body s).1 = .returned value → carried value = .allocated a →
    s.heap.issued ≤ a.id ∧ a.id < (body s).2.2.heap.issued
  freed : ∀ s, (body s).2.1.freed = []

/-- The entry point of such a body supplies, whatever the body comes to. -/
theorem Body.IsProper.supplies {body : Body α} (h : body.IsProper carried) {fallback : α}
    (hfallback : carried fallback = .null) (s : State) :
    Supplies carried s.heap (body.entry fallback s).1 (body.entry fallback s).2.heap := by
  obtain ⟨logs, hlogs, hrun⟩ := run_eq (body s).2.2.heap fallback (body s).1
  have hfreed : ((body s).2.1 ++ logs).freed = [] := by
    rw [Trace.freed_append, h.freed s, hlogs.freed]
    rfl
  simp only [entry, State.onHeap, hrun]
  cases houtcome : (body s).1 with
  | returned value => exact .of_value (h.issued_le s) (fun a => h.isNew s value a houtcome) hfreed
  | failed error => exact (Supplies.of_payload _ _ hfallback hfreed).mono (h.issued_le s)
  | panicked panic => exact (Supplies.of_payload _ _ hfallback hfreed).mono (h.issued_le s)

/-- The body that returns bytes in a new allocation with this much room. -/
def Body.allocating (outcome : Outcome (Bytes × Nat)) : Body Buffer := fun s =>
  match outcome with
  | .returned (bytes, room) =>
    let (buffer, heap) := s.heap.allocate bytes room
    (.returned buffer, [], { s with heap })
  | .failed error => (.failed error, [], s)
  | .panicked panic => (.panicked panic, [], s)

theorem Body.allocating_isProper (outcome : Outcome (Bytes × Nat)) :
    (allocating outcome).IsProper id := by
  refine ⟨fun s => ?_, fun s value a hvalue hcarried => ?_, fun s => ?_⟩
  · cases outcome with
    | returned content => exact Nat.le_succ _
    | _ => exact le_rfl
  · cases outcome with
    | returned content =>
      cases hvalue
      cases hcarried
      exact ⟨le_rfl, Nat.lt_succ_self _⟩
    | failed error => cases hvalue
    | panicked panic => cases hvalue
  · cases outcome <;> rfl

/-- The size of a new buffer. -/
def sized (size : Nat) : Outcome (Bytes × Nat) :=
  if size < sizeLimit then .returned ([], size) else capacityOverflow

/-- The bytes and the room of a buffer that was grown. -/
def grown (b : Buffer) (additional : Nat) : Outcome (Bytes × Nat) :=
  if b.length + additional ≤ b.capacity then .returned (b.bytes, b.capacity)
  else if b.length + additional < sizeLimit then .returned (b.bytes, b.length + additional)
  else capacityOverflow

theorem machine_alloc (size : Nat) :
    machine.alloc size = (Body.allocating (sized size)).entry .null := by
  funext s
  simp only [machine, State.onHeap, alloc, sized]
  split_ifs <;> rfl

theorem machine_fromBytes (lent : Lent) : machine.fromBytes lent =
    (Body.allocating (.returned (lent.slice, lent.slice.length))).entry .null := rfl

theorem machine_reserve (b : Buffer) (additional : Nat) :
    machine.reserve b additional = (Body.allocating (grown b additional)).entry .null := by
  funext s
  simp only [machine, State.onHeap, reserve, grown]
  split_ifs <;> rfl

theorem supplies_complete (flavour : Flavour) (task : Nat) (s : State) :
    Supplies Collection.carried s.heap (machine.complete flavour task s).1
      (machine.complete flavour task s).2.heap := by
  have hnothing : (State.nothing flavour).carried = .null := by cases flavour <;> rfl
  simp only [machine, State.complete]
  cases (s.tasks.complete flavour task).1 with
  | value v =>
    cases v with
    | void | word n =>
      exact .of_value le_rfl (fun a ha => by cases ha) rfl
    | buffer bytes =>
      refine .of_value (Nat.le_succ _) (fun a ha => ?_) rfl
      cases ha
      exact ⟨le_rfl, Nat.lt_succ_self _⟩
  | domain bytes => exact .of_payload _ _ hnothing Trace.freed_nil
  | panicked message => exact .of_payload _ _ hnothing (Trace.onlyLogs_log _ _).freed
  | cancelled => exact .of_payload ResultCode.cancelled.raw [] hnothing Trace.freed_nil

end Core

namespace Host

open CoreBridge.Core

variable {σ α β ε : Type}

/-! ## The ledger -/

/-- A core with a ledger of the buffers that pass between it and its host. -/
structure Audited (σ : Type) where
  core : σ
  given : List Buffer := []
  /-- What was passed to the entry point that grows buffers. -/
  grown : List Buffer := []
  /-- What was handed over as an argument. -/
  handed : List Buffer := []

/-- The transition that also writes down what passes to the core and what is given. -/
def Audited.note (carried : α → Buffer) (grown handed : List Buffer)
    (transition : σ → Reply α × σ) (s : Audited σ) : Reply α × Audited σ :=
  let (reply, core) := transition s.core
  (reply, { core
            given := s.given ++ reply.given carried
            grown := s.grown ++ grown
            handed := s.handed ++ handed })

/-- The core that does what `core` does and keeps a ledger. -/
def audit (core : EntryPoints σ) : EntryPoints (Audited σ) where
  alloc size := Audited.note id [] [] (core.alloc size)
  fromBytes lent := Audited.note id [] [] (core.fromBytes lent)
  reserve buffer additional := Audited.note id buffer.owned [] (core.reserve buffer additional)
  contractVersion := Audited.note (fun _ => .null) [] [] core.contractVersion
  setContinuation callback := Audited.note (fun _ => .null) [] [] (core.setContinuation callback)
  poll task id := Audited.note (fun _ => .null) [] [] (core.poll task id)
  cancel task := Audited.note (fun _ => .null) [] [] (core.cancel task)
  complete flavour task := Audited.note Collection.carried [] [] (core.complete flavour task)
  freeTask task := Audited.note (fun _ => .null) [] [] (core.freeTask task)

/-- How often a buffer was given back, grown or handed over. -/
def Session.spent (s : Session (Audited σ)) (b : Buffer) : Nat :=
  s.trace.freed.count b + s.core.grown.count b + s.core.handed.count b

/-- Giving back succeeds, and what was given is told apart by its numbers. -/
structure Session.IsSound (s : Session (Audited State)) : Prop where
  freeReplies : s.freeReplies = []
  issued : ∀ b ∈ s.core.given, ∃ n, b.id? = some n ∧ n < s.core.core.heap.issued
  distinct : (s.core.given.map Buffer.id?).Nodup

/-- A step of a host that takes some buffers and leaves others. Of every buffer,
what was taken or is given meanwhile is left or spent. -/
def Balances (taken : List Buffer) (x : HostM (Audited State) α) (left : α → List Buffer) : Prop :=
  ∀ s : Session (Audited State), s.IsSound → (x.run s).2.IsSound ∧ ∀ b,
    (x.run s).2.core.given.count b + s.spent b + taken.count b =
      s.core.given.count b + (x.run s).2.spent b + (left (x.run s).1).count b

namespace Balances

variable {taken : List Buffer} {x : HostM (Audited State) α} {left : α → List Buffer}

theorem pure {a : α} (h : taken = left a) : Balances taken (Pure.pure a) left :=
  fun _ hs => ⟨hs, fun _ => h ▸ rfl⟩

theorem bind {next : α → HostM (Audited State) β} {last : β → List Buffer}
    (hx : Balances taken x left) (hnext : ∀ a, Balances (left a) (next a) last) :
    Balances taken (x >>= next) last := by
  intro s hs
  obtain ⟨hs', hfirst⟩ := hx s hs
  obtain ⟨hs'', hsecond⟩ := hnext (x.run s).1 (x.run s).2 hs'
  have hrun : (x >>= next).run s = (next (x.run s).1).run (x.run s).2 := rfl
  rw [hrun]
  refine ⟨hs'', fun b => ?_⟩
  have hfirst := hfirst b
  have hsecond := hsecond b
  omega

/-- What a step does not take is still there after it. -/
theorem frame (h : Balances taken x left) (others : List Buffer) :
    Balances (taken ++ others) x (fun a => left a ++ others) := by
  intro s hs
  obtain ⟨hs', hcount⟩ := h s hs
  refine ⟨hs', fun b => ?_⟩
  have hcount := hcount b
  simp only [List.count_append]
  omega

theorem observe {trace : Trace} (h : trace.freed = []) :
    Balances [] (HostM.observe trace) (fun _ => []) := by
  intro s hs
  have hfreed : (s.trace ++ trace).freed = s.trace.freed := by
    rw [Trace.freed_append, h, List.append_nil]
  refine ⟨⟨hs.freeReplies, hs.issued, hs.distinct⟩, fun b => ?_⟩
  have hspent : ((HostM.observe trace).run s).2.spent b =
      (s.trace ++ trace).freed.count b + s.core.grown.count b + s.core.handed.count b := rfl
  rw [hspent, hfreed]
  rfl

/-- A buffer is given back once, unless it is null. -/
theorem release (buffer : Buffer) :
    Balances buffer.owned (HostM.release buffer) (fun _ => []) := by
  intro s hs
  have hreleased : (releaseWith s.freeReplies buffer).1.freed = buffer.owned ∧
      (releaseWith s.freeReplies buffer).2 = [] := by
    rw [hs.freeReplies]
    cases buffer <;> exact ⟨rfl, rfl⟩
  refine ⟨⟨hreleased.2, hs.issued, hs.distinct⟩, fun b => ?_⟩
  have hspent : ((HostM.release buffer).run s).2.spent b =
      (s.trace ++ (releaseWith s.freeReplies buffer).1).freed.count b +
        s.core.grown.count b + s.core.handed.count b := rfl
  rw [hspent, Trace.freed_append, hreleased.1, List.count_append, Session.spent, List.count_nil]
  simp only [show ((HostM.release buffer).run s).2.core = s.core from rfl]
  omega

/-! ### Calls -/

/-- What a call leaves: the buffer that it returned. -/
def kept (carried : α → Buffer) : Except ε α → List Buffer
  | .ok value => (carried value).owned
  | .error _ => []

variable {carried : α → Buffer} {transition : State → Reply α × State}

theorem enter (grown handed : List Buffer)
    (h : ∀ s, Supplies carried s.heap (transition s).1 (transition s).2.heap) :
    Balances (grown ++ handed) (HostM.enter (Audited.note carried grown handed transition))
      (fun answer => answer.2.payload.owned ++
        if Succeeded answer.2 then (carried answer.1).owned else []) := by
  intro s hs
  have hsupplies := h s.core.core
  let reply := (transition s.core.core).1
  let s₁ : Session (Audited State) :=
    { s with core := (Audited.note carried grown handed transition s.core).2 }
  obtain ⟨hcore, -⟩ := HostM.absorb_run reply.trace s₁
  obtain ⟨hfreed, hreplies⟩ := HostM.absorb_freed reply.trace s₁
  have hrun : (HostM.enter (Audited.note carried grown handed transition)).run s =
      ((reply.value, reply.status), ((HostM.absorb reply.trace).run s₁).2) := rfl
  have hgiven : s₁.core.given = s.core.given ++ reply.given carried := rfl
  rw [hrun]
  refine ⟨⟨hreplies.trans hs.freeReplies, ?_, ?_⟩, fun b => ?_⟩
  · rw [hcore, hgiven]
    intro b hb
    obtain hold | hnew := List.mem_append.1 hb
    · obtain ⟨n, hid, hn⟩ := hs.issued b hold
      exact ⟨n, hid, hn.trans_le hsupplies.issued_le⟩
    · obtain ⟨n, hid, -, hn⟩ := hsupplies.isNew b hnew
      exact ⟨n, hid, hn⟩
  · rw [hcore, hgiven, List.map_append]
    refine hs.distinct.append hsupplies.distinct ?_
    -- What was given before has smaller numbers.
    rintro _ hold hnew
    obtain ⟨b, hb, rfl⟩ := List.mem_map.1 hold
    obtain ⟨b', hb', hid⟩ := List.mem_map.1 hnew
    obtain ⟨n, hn, hlt⟩ := hs.issued b hb
    obtain ⟨n', hn', hle, -⟩ := hsupplies.isNew b' hb'
    obtain rfl : n' = n := Option.some.inj (hn'.symm.trans (hid.trans hn))
    exact absurd hlt (Nat.not_lt_of_ge hle)
  · have hvalue : (if Succeeded reply.status then (carried reply.value).owned else []) =
        (carried reply.value).owned := by
      split_ifs with hsucceeded
      · rfl
      · rw [hsupplies.of_failed hsucceeded]
        rfl
    have hquiet : reply.trace.freed = [] := hsupplies.freed
    simp only [Session.spent, hcore, hfreed, hquiet, hvalue, hgiven]
    simp only [s₁, Audited.note, Reply.given, List.count_append, List.append_nil]
    omega

theorem call (grown handed : List Buffer)
    (h : ∀ s, Supplies carried s.heap (transition s).1 (transition s).2.heap) :
    Balances (grown ++ handed) (HostM.call (Audited.note carried grown handed transition))
      (kept carried) := by
  refine (enter grown handed h).bind fun answer => ?_
  obtain ⟨value, status⟩ := answer
  refine ((observe Trace.freed_nil).frame _).bind fun _ => ?_
  refine ((release status.payload).frame _).bind fun _ => pure ?_
  obtain ⟨hsucceeded, hok⟩ | ⟨hfailed, fault, herror⟩ := classifyInfallible_cases status
  · rw [hok]
    exact if_pos hsucceeded
  · rw [herror]
    exact if_neg hfailed

theorem callFallible (decode : Bytes → Except Wire.DecodeError ε) (grown handed : List Buffer)
    (h : ∀ s, Supplies carried s.heap (transition s).1 (transition s).2.heap) :
    Balances (grown ++ handed)
      (HostM.callFallible decode (Audited.note carried grown handed transition))
      (kept carried) := by
  refine (enter grown handed h).bind fun answer => ?_
  obtain ⟨value, status⟩ := answer
  refine ((release status.payload).frame _).bind fun _ => pure ?_
  obtain ⟨hsucceeded, hok⟩ | ⟨hfailed, error, herror⟩ := classify_cases decode status
  · rw [hok]
    exact if_pos hsucceeded
  · rw [herror]
    exact if_neg hfailed

end Balances

/-! ## Buffers that the host asks for -/

namespace CoreBuffer

/-- Asks for a buffer; `transition` allocates it in exchange for what is grown. -/
def ask (shown : Trace) (grown : List Buffer) (transition : State → Reply Buffer × State) :
    HostM (Audited State) (Except Fault CoreBuffer) := do
  HostM.observe shown
  return (← HostM.call (Audited.note id grown [] transition)).map CoreBuffer.mk

variable {transition : State → Reply Buffer × State} {outcome : Outcome (Bytes × Nat)}

theorem ask_balances (htransition : transition = (Body.allocating outcome).entry .null)
    {shown : Trace} (hshown : shown.freed = []) (grown : List Buffer) :
    Balances grown (ask shown grown transition) (Balances.kept raw) := by
  have hsupplies (s : State) : Supplies id s.heap (transition s).1 (transition s).2.heap :=
    htransition ▸ (Body.allocating_isProper outcome).supplies rfl s
  have hcall := Balances.call grown [] hsupplies
  rw [List.append_nil] at hcall
  refine ((Balances.observe hshown).frame grown).bind fun _ => hcall.bind fun answer => .pure ?_
  cases answer <;> rfl

theorem alloc_balances (size : Nat) :
    Balances [] (alloc (audit machine) size) (Balances.kept raw) :=
  ask_balances (machine_alloc size) rfl []

theorem reserve_balances (b : CoreBuffer) (additional : Nat) :
    Balances b.raw.owned (reserve (audit machine) b additional) (Balances.kept raw) :=
  ask_balances (machine_reserve b.raw additional) rfl b.raw.owned

theorem fromBytes_balances (bytes : Bytes) :
    Balances [] (fromBytes (audit machine) bytes) (Balances.kept raw) := by
  unfold fromBytes
  split_ifs
  · exact .pure rfl
  · cases Lent.ofBytes? bytes with
    | none => exact .pure rfl
    | some lent => exact ask_balances (machine_fromBytes lent) rfl []

theorem lower_balances (v : Wire.Value) :
    Balances [] (lower (audit machine) v) (Balances.kept raw) := by
  unfold lower
  cases Wire.encode v with
  | error error => exact .pure rfl
  | ok bytes => exact fromBytes_balances bytes

/-- A panic of the allocator, as a caller learns of it. -/
def overflow : Fault := .nativePanic "capacity overflow"

variable (s : Session (Audited State))

end CoreBuffer

/-! ## Everything a host does with buffers -/

/-- An entry point that is handed buffers and supplies others. -/
structure Service where
  entry : List Buffer → State → Reply Returned × State
  supplies : ∀ arguments s, Supplies Returned.carried s.heap (entry arguments s).1
    (entry arguments s).2.heap

namespace Service

/-- The entry point that runs a body. -/
def ofBody (type : ReturnType) (body : List Buffer → Body Returned)
    (h : ∀ arguments, (body arguments).IsProper Returned.carried) : Service where
  entry arguments := (body arguments).entry type.default
  supplies arguments s := (h arguments).supplies (by cases type <;> rfl) s

/-- The entry point that also writes down what it is handed and what it gives. -/
def audited (service : Service) (arguments : List Buffer) :
    Audited State → Reply Returned × Audited State :=
  Audited.note Returned.carried [] (arguments.flatMap Buffer.owned) (service.entry arguments)

variable (service : Service) (arguments : List Buffer)

theorem call_balances : Balances (arguments.flatMap Buffer.owned)
    (HostM.call (service.audited arguments)) (Balances.kept Returned.carried) :=
  Balances.call [] _ (service.supplies arguments)

theorem callFallible_balances (decode : Bytes → Except Wire.DecodeError ε) :
    Balances (arguments.flatMap Buffer.owned)
      (HostM.callFallible decode (service.audited arguments)) (Balances.kept Returned.carried) :=
  Balances.callFallible decode [] _ (service.supplies arguments)

end Service

/-- What a host does with the buffers it owns. -/
inductive Action where
  | alloc (size : Nat)
  | fromBytes (bytes : Bytes)
  | lower (v : Wire.Value)
  | reserve (b : CoreBuffer) (additional : Nat)
  | drop (b : CoreBuffer)
  | lift (schema : Wire.Schema) (t : Wire.Ty) (b : CoreBuffer)
  | liftText (b : CoreBuffer)
  /-- Calls an entry point that declares no error. -/
  | call (service : Service) (arguments : List CoreBuffer)
  /-- Calls an entry point that declares an error of type `t`. -/
  | callFallible (schema : Wire.Schema) (t : Wire.Ty) (service : Service)
    (arguments : List CoreBuffer)
  /-- Collects a task. -/
  | collect (schema : Wire.Schema) (t : Wire.Ty) (flavour : Flavour) (task : Nat)

namespace Action

/-- The buffers that it uses up. -/
def taken : Action → List CoreBuffer
  | reserve b _ | drop b | lift _ _ b | liftText b => [b]
  | call _ arguments | callFallible _ _ _ arguments => arguments
  | _ => []

/-- The host owns a buffer that an entry point returns, null or not. -/
def returned : Returned → List CoreBuffer
  | .buffer b => [⟨b⟩]
  | _ => []

def collected : Collection → List CoreBuffer
  | .buffer b => [⟨b⟩]
  | _ => []

/-- The buffer that comes of it, if one does. -/
def made (buffers : α → List CoreBuffer) : Except ε α → List CoreBuffer
  | .ok value => buffers value
  | .error _ => []

/-- Does it, with a core and with what enters a service; the buffers that come of it are owned. -/
def run (core : EntryPoints σ) (enter : Service → List Buffer → σ → Reply Returned × σ) :
    Action → HostM σ (List CoreBuffer)
  | alloc size => return made List.singleton (← CoreBuffer.alloc core size)
  | fromBytes bytes => return made List.singleton (← CoreBuffer.fromBytes core bytes)
  | lower v => return made List.singleton (← CoreBuffer.lower core v)
  | reserve b additional => return made List.singleton (← b.reserve core additional)
  | drop b => do
    b.drop
    return []
  | lift schema t b => do
    let _ ← b.lift schema t
    return []
  | liftText b => do
    let _ ← b.liftText
    return []
  | call service arguments =>
    return made returned (← HostM.call (enter service (arguments.map CoreBuffer.intoRaw)))
  | callFallible schema t service arguments =>
    return made returned (← HostM.callFallible (schema.decode t)
      (enter service (arguments.map CoreBuffer.intoRaw)))
  | collect schema t flavour task =>
    return made collected (← Host.collect core (schema.decode t) flavour task)

/-- The allocations behind some buffers. -/
def owned (buffers : List CoreBuffer) : List Buffer := buffers.flatMap fun b => b.raw.owned

theorem owned_append (first second : List CoreBuffer) :
    owned (first ++ second) = owned first ++ owned second := List.flatMap_append

variable {buffers : α → List CoreBuffer} {carried : α → Buffer} {taken : List Buffer}

/-- What a call leaves is what comes of it. -/
theorem made_balances {x : HostM (Audited State) (Except ε α)}
    (hbuffers : ∀ value, owned (buffers value) = (carried value).owned)
    (h : Balances taken x (Balances.kept carried)) :
    Balances taken (do return made buffers (← x)) owned := by
  refine h.bind fun answer => .pure ?_
  cases answer with
  | ok value => exact (hbuffers value).symm
  | error error => rfl

theorem drop_balances {x : HostM (Audited State) α} (b : CoreBuffer)
    (h : Balances b.raw.owned x fun _ => []) :
    Balances (owned [b]) (do let _ ← x; return []) owned := by
  have hb : owned [b] = b.raw.owned := List.append_nil _
  rw [hb]
  exact h.bind fun _ => .pure rfl

/-- Every action turns the buffers that it uses up into those that come of it. -/
theorem balances (a : Action) :
    Balances (owned a.taken) (a.run (audit machine) Service.audited) owned := by
  have hsingleton (b : CoreBuffer) : owned (List.singleton b) = b.raw.owned := List.append_nil _
  have hreturned (value : Returned) : owned (returned value) = value.carried.owned := by
    cases value with
    | buffer b => exact List.append_nil _
    | _ => rfl
  have hcollected (value : Collection) : owned (collected value) = value.carried.owned := by
    cases value with
    | buffer b => exact List.append_nil _
    | _ => rfl
  have harguments (arguments : List CoreBuffer) :
      (arguments.map CoreBuffer.intoRaw).flatMap Buffer.owned = owned arguments :=
    List.flatMap_map ..
  cases a with
  | alloc size => exact made_balances hsingleton (CoreBuffer.alloc_balances size)
  | fromBytes bytes => exact made_balances hsingleton (CoreBuffer.fromBytes_balances bytes)
  | lower v => exact made_balances hsingleton (CoreBuffer.lower_balances v)
  | reserve b additional =>
    have hreserve := made_balances hsingleton (CoreBuffer.reserve_balances b additional)
    rwa [← hsingleton] at hreserve
  | drop b => exact drop_balances b (.release b.raw)
  | lift schema t b => exact drop_balances b ((Balances.release b.raw).bind fun _ => .pure rfl)
  | liftText b => exact drop_balances b ((Balances.release b.raw).bind fun _ => .pure rfl)
  | call service arguments =>
    have hcall := service.call_balances (arguments.map CoreBuffer.intoRaw)
    rw [harguments] at hcall
    exact made_balances hreturned hcall
  | callFallible schema t service arguments =>
    have hcall := service.callFallible_balances (arguments.map CoreBuffer.intoRaw)
      (schema.decode t)
    rw [harguments] at hcall
    exact made_balances hreturned hcall
  | collect schema t flavour task =>
    refine made_balances hcollected ((Balances.observe rfl).bind fun _ => ?_)
    exact Balances.callFallible (schema.decode t) [] [] (supplies_complete flavour task)

end Action

/-- A host and the buffers that it owns. -/
structure Custody where
  session : Session (Audited State)
  live : List CoreBuffer

namespace Custody

/-- The host does something; `rest` are the buffers that it does not use up. -/
def after (c : Custody) (a : Action) (rest : List CoreBuffer) : Custody :=
  let (made, session) := (a.run (audit machine) Service.audited).run c.session
  { session, live := made ++ rest }

/-- A host that starts with no buffer and uses up only buffers that it owns. -/
inductive Reaches : Custody → Prop
  | start (core : State) : Reaches { session := { core := { core } }, live := [] }
  | act {c : Custody} {a : Action} {rest : List CoreBuffer} : Reaches c →
    c.live.Perm (a.taken ++ rest) → Reaches (c.after a rest)

/-- Every buffer that was given is spent or owned. -/
structure Accounts (c : Custody) : Prop where
  sound : c.session.IsSound
  balanced : ∀ b, c.session.core.given.count b =
    c.session.spent b + (Action.owned c.live).count b

variable {c : Custody}

theorem Accounts.after (h : c.Accounts) {a : Action} {rest : List CoreBuffer}
    (hlive : c.live.Perm (a.taken ++ rest)) : (c.after a rest).Accounts := by
  obtain ⟨hsound, hcount⟩ := a.balances c.session h.sound
  refine ⟨hsound, fun b => ?_⟩
  have hbefore := h.balanced b
  have hcount := hcount b
  have htaken : (Action.owned c.live).count b =
      (Action.owned a.taken).count b + (Action.owned rest).count b := by
    rw [Action.owned, (hlive.flatMap_right _).count_eq, ← Action.owned, Action.owned_append,
      List.count_append]
  have hmade : (Action.owned (c.after a rest).live).count b =
      (Action.owned ((a.run (audit machine) Service.audited).run c.session).1).count b +
        (Action.owned rest).count b := by
    rw [← List.count_append, ← Action.owned_append]
    rfl
  rw [hmade]
  change ((a.run (audit machine) Service.audited).run c.session).2.core.given.count b =
    ((a.run (audit machine) Service.audited).run c.session).2.spent b + _
  omega

end Custody

/-- Returns the bytes that it is handed, in a buffer of their own. -/
def echo : Service := .ofBody .buffer
  (fun arguments s =>
    let (b, heap) := s.heap.store (arguments.flatMap Buffer.bytes)
    (.returned (.buffer b), [], { s with heap }))
  fun arguments => {
    issued_le := fun s => Nat.le_succ _
    isNew := fun s value a hvalue ha => by
      cases hvalue
      cases ha
      exact ⟨le_rfl, Nat.lt_succ_self _⟩
    freed := fun s => rfl }

end Host
end CoreBridge
