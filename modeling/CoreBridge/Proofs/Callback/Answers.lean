import CoreBridge.Proofs.Async.Record
import CoreBridge.Proofs.Callback.Invocation
import Mathlib

/-!
# How any dispatch is answered

The core may dispatch what it likes: a handle that was released, arguments that are not there,
a method before the contract is registered, with nowhere to put the result. A dispatch that
releases a handle takes it out of the table and looks at nothing else. Any other dispatch has two
stages. It refuses or runs the method (`Exchange.Reports`), which is all that can bear on the
table, and then hands over what came of it (`Returns`), which is all that can bear on the core.
-/
namespace CoreBridge

theorem ResultCode.raw_range (code : ResultCode) : 0 ≤ code.raw ∧ code.raw ≤ 3 := by
  cases code <;> decide

namespace Core

/-- Whether a buffer that the core reports to have made of what it is lent holds just that. -/
def EntryPoints.Copies {σ : Type} (core : EntryPoints σ) : Prop :=
  ∀ lent s, Host.Succeeded (core.fromBytes lent s).1.status →
    (core.fromBytes lent s).1.value.bytes = lent.slice

theorem machine_copies : machine.Copies := fun _ _ _ => rfl

end Core

namespace Host

open CoreBridge.Core

variable {σ θ η : Type}

/-! ## Releasing a handle -/

/-- Whether a table is another one but for the entry of one handle. -/
structure HandleTable.Without (t' t : HandleTable θ) (handle : Nat) : Prop where
  entries (other : Nat) :
    t'.byHandle.get? other = if other = handle then none else t.byHandle.get? other
  identities (address : Nat) : t'.byIdentity.get? address =
    if (t.byHandle.get? handle).map (·.address) = some address then none
    else t.byIdentity.get? address
  last : t'.lastHandle = t.lastHandle
  absent : t.byHandle.get? handle = none → t' = t

theorem HandleTable.remove_without (t : HandleTable θ) (handle : Nat) :
    (t.remove handle).2.Without t handle := by
  cases hget : t.byHandle.get? handle with
  | none =>
    have hremoved : t.remove handle = (none, t) := by simp only [remove, hget]
    rw [hremoved]
    refine ⟨?_, ?_, rfl, fun _ => rfl⟩
    · intro other
      split_ifs with hother
      · rw [hother, hget]
      · rfl
    · intro address
      simp [hget]
  | some i =>
    have hremoved : t.remove handle = (some i, { t with
        byHandle := t.byHandle.erase handle
        byIdentity := t.byIdentity.erase i.address }) := by simp only [remove, hget]
    rw [hremoved]
    refine ⟨?_, ?_, rfl, ?_⟩
    · intro other
      simp [eq_comm]
    · intro address
      simp [hget]
    · intro hnone
      rw [hget] at hnone
      cases hnone

namespace CallbackM

variable (core : EntryPoints σ) (contract : Contract θ η) (e : Exchange σ θ η)
variable (handle method : Nat) (args : Option Bytes) (length : Int) (hasOut : Bool)

theorem dispatch_release_core :
    ((dispatch core contract handle releaseMethod args length hasOut).run e).2.session.core =
      e.session.core := by
  unfold dispatch
  rw [if_pos rfl]
  cases hremoved : (e.slot.table.remove handle).1 <;> simp [hremoved] <;> rfl

end CallbackM

/-! ## Whether the method runs -/

/-- Why a dispatch runs no method, if it runs none. The handle is looked at first, then the
length of the arguments, then whether there are any. -/
def Exchange.refusal? (e : Exchange σ θ η) (handle : Nat) (args : Option Bytes) (length : Int) :
    Option Fault :=
  if e.slot.table.byHandle.get? handle = none then some (.unknownHandle handle)
  else if length < 0 then some (.decode (.negativeLength length))
  else if args = none ∧ 0 < length then some (.decode (.unexpectedEnd length.toNat 0))
  else none

/-- What a dispatch of a method reports, and what becomes of the table and the objects. -/
inductive Exchange.Reports (e : Exchange σ θ η) (contract : Contract θ η) (handle method : Nat)
    (args : Option Bytes) (length : Int) : ResultCode → Bytes → HandleTable θ → η → Prop where
  /-- The method does not run. -/
  | refused {fault : Fault} : e.refusal? handle args length = some fault →
      e.Reports contract handle method args length .unexpected (Bytes.ofText fault.message)
        e.slot.table e.objects
  /-- The method runs on what is lent, and what it leaves is left. Code and payload tell what it
  came to. -/
  | ran {target : Instance θ} {answer : Except Stop Unit} {frame : Frame θ η} {code : ResultCode}
      {payload : Bytes} : e.refusal? handle args length = none →
      e.slot.table.byHandle.get? handle = some target →
      (contract.invoke target method).run.run
        { args := (args.getD []).take length.toNat, table := e.slot.table, objects := e.objects } =
          (answer, frame) →
      Proxy.outcome code.raw payload = frame.seen answer →
      payload = Proxy.carried (frame.seen answer) →
      e.Reports contract handle method args length code payload frame.table frame.objects

section Refusals

variable {e : Exchange σ θ η} {handle : Nat} {args : Option Bytes} {length : Int}

/-- A dispatch that is not refused passed all three checks. -/
theorem Exchange.of_refusal?_eq_none (h : e.refusal? handle args length = none) :
    (∃ target, e.slot.table.byHandle.get? handle = some target) ∧
      CallbackM.arguments args length = .ok ((args.getD []).take length.toNat) := by
  unfold refusal? at h
  split_ifs at h with hhandle hnegative hnull
  refine ⟨Option.ne_none_iff_exists'.1 hhandle, ?_⟩
  unfold CallbackM.arguments
  rw [if_neg hnegative]
  cases args with
  | some bytes => rfl
  | none =>
    have hzero : length = 0 := by
      by_contra hne
      exact hnull ⟨rfl, by omega⟩
    subst hzero
    rfl

/-- What is refused is reported by its text, and touches nothing. -/
theorem Exchange.Reports.of_refusal {contract : Contract θ η} {method : Nat} {code : ResultCode}
    {payload : Bytes} {table : HandleTable θ} {objects : η} {fault : Fault}
    (h : e.Reports contract handle method args length code payload table objects)
    (hfault : e.refusal? handle args length = some fault) :
    code = .unexpected ∧ payload = Bytes.ofText fault.message ∧ table = e.slot.table := by
  cases h with
  | refused hrefusal =>
    obtain rfl := Option.some.inj (hrefusal.symm.trans hfault)
    exact ⟨rfl, rfl, rfl⟩
  | ran hnone => cases hnone.symm.trans hfault

theorem CallbackM.invoke_refused (contract : Contract θ η) (method : Nat) {fault : Fault}
    (h : e.refusal? handle args length = some fault) :
    (invoke contract handle method args length).run e =
      (.error (.failed (.protocol fault)), e) := by
  unfold Exchange.refusal? at h
  cases hget : e.slot.table.byHandle.get? handle with
  | none =>
    rw [if_pos hget] at h
    obtain rfl := Option.some.inj h
    apply invoke_unknown
    simp only [HandleTable.get, hget]
  | some target =>
    have htarget : e.slot.table.get handle = .ok target := by simp only [HandleTable.get, hget]
    rw [if_neg (by simp [hget])] at h
    have hrun (error : Wire.DecodeError) (harguments : arguments args length = .error error) :
        (invoke contract handle method args length).run e =
          (.error (.failed (.protocol (.decode error))), e) := by
      unfold invoke
      simp [htarget, harguments]
      rfl
    split_ifs at h with hnegative hnull
    · obtain rfl := Option.some.inj h
      exact hrun _ (if_pos hnegative)
    · obtain rfl := Option.some.inj h
      apply hrun
      unfold arguments
      rw [if_neg hnegative, hnull.1]
      exact if_neg (by omega)

theorem CallbackM.invoke_ran (contract : Contract θ η) (method : Nat) {target : Instance θ}
    (h : e.refusal? handle args length = none)
    (hget : e.slot.table.byHandle.get? handle = some target) :
    (invoke contract handle method args length).run e =
      (runMethod contract target method ((args.getD []).take length.toNat)).run e := by
  have htarget : e.slot.table.get handle = .ok target := by simp only [HandleTable.get, hget]
  have harguments := (Exchange.of_refusal?_eq_none h).2
  unfold invoke
  simp [htarget, harguments]

/-- The first stage of a dispatch: nothing but the table and the objects is touched, and these
only by the method. -/
theorem CallbackM.invoke_reports (contract : Contract θ η) (e : Exchange σ θ η)
    (handle method : Nat) (args : Option Bytes) (length : Int) :
    ∃ ending table objects code payload logs,
      (invoke contract handle method args length).run e =
        (ending, { e with slot := { e.slot with table }, objects }) ∧
      report contract.name handle method ending = (code, payload, logs) ∧
      e.Reports contract handle method args length code payload table objects := by
  cases hrefusal : e.refusal? handle args length with
  | some fault =>
    exact ⟨_, _, _, _, _, _, invoke_refused contract method hrefusal, rfl, .refused hrefusal⟩
  | none =>
    obtain ⟨⟨target, hget⟩, _⟩ := Exchange.of_refusal?_eq_none hrefusal
    have hrun := runMethod_run contract method ((args.getD []).take length.toNat) e target
    rcases hbody : (contract.invoke target method).run.run
      { args := (args.getD []).take length.toNat, table := e.slot.table, objects := e.objects }
      with ⟨answer, frame⟩
    rw [hbody] at hrun
    obtain ⟨houtcome, hcarried, -⟩ := report_spec contract handle method (frame.finish answer)
    rw [← Frame.seen_eq] at houtcome hcarried
    exact ⟨_, _, _, _, _, _, (invoke_ran contract method hrefusal hget).trans hrun, rfl,
      .ran hrefusal hget hbody houtcome hcarried⟩

end Refusals

/-! ## Handing over what came of it -/

/-- What is returned for a code and a payload by a host whose core is in this state, what is
written out, and what becomes of the core. -/
inductive Returns (core : EntryPoints σ) (registered hasOut : Bool) (s : σ) (code : ResultCode)
    (payload : Bytes) : Int × Option Buffer → σ → Prop where
  /-- There is nowhere to write to. -/
  | dropped : hasOut = false → Returns core registered hasOut s code payload (code.raw, none) s
  /-- Nothing takes no buffer of the core. -/
  | empty : hasOut = true → payload = [] →
      Returns core registered hasOut s code payload (code.raw, some .null) s
  /-- No core is known that could hold the payload. -/
  | unregistered : hasOut = true → payload ≠ [] → registered = false →
      Returns core registered hasOut s code payload (2, none) s
  /-- The payload is longer than anything that can be lent. -/
  | tooLong : hasOut = true → payload ≠ [] → registered = true → 0x80000000 ≤ payload.length →
      Returns core registered hasOut s code payload (2, none) s
  /-- The core is lent the payload and reports that it made no buffer. -/
  | uncopied : hasOut = true → payload ≠ [] → registered = true → payload.length < 0x80000000 →
      ¬ Succeeded (core.fromBytes ⟨payload.length, some payload⟩ s).1.status →
      Returns core registered hasOut s code payload (2, none)
        (core.fromBytes ⟨payload.length, some payload⟩ s).2
  /-- The core is lent the payload, and the buffer that it made is written out. -/
  | copied : hasOut = true → payload ≠ [] → registered = true → payload.length < 0x80000000 →
      Succeeded (core.fromBytes ⟨payload.length, some payload⟩ s).1.status →
      Returns core registered hasOut s code payload
        (code.raw, some (core.fromBytes ⟨payload.length, some payload⟩ s).1.value)
        (core.fromBytes ⟨payload.length, some payload⟩ s).2

namespace CoreBuffer

variable (core : EntryPoints σ) {payload : Bytes} (s : Session σ)

theorem fromBytes_tooLong (hpayload : payload ≠ []) (h : 0x80000000 ≤ payload.length) :
    (fromBytes core payload).run s = (.error (.encode (.lengthOverflow payload.length)), s) := by
  have hlent : Lent.ofBytes? payload = none := if_neg (Nat.not_lt_of_ge h)
  unfold fromBytes
  rw [if_neg (by simpa using hpayload), hlent]
  rfl

/-- What comes of having the core copy a payload. -/
theorem fromBytes_lent (hpayload : payload ≠ []) (hfits : payload.length < 0x80000000) :
    let answer := core.fromBytes ⟨payload.length, some payload⟩ s.core
    ∃ s', (fromBytes core payload).run s =
        ((classifyInfallible answer.1.status).map fun () => ⟨answer.1.value⟩, s') ∧
      s'.core = answer.2 := by
  intro answer
  obtain ⟨s', hcall, hcore, -⟩ := HostM.call_run
    (core.fromBytes ⟨payload.length, some payload⟩) (fun _ => [])
    { s with trace := s.trace ++ [.fromBytes payload] }
  refine ⟨s', ?_, hcore⟩
  rw [fromBytes_call core s hpayload hfits, hcall]
  cases classifyInfallible answer.1.status <;> rfl

end CoreBuffer

namespace CallbackM

variable {core : EntryPoints σ} {contract : Contract θ η} {e e₁ : Exchange σ θ η}
variable {handle method : Nat} {args : Option Bytes} {length : Int} {payload : Bytes}

theorem writeOut_unregistered (hpayload : payload ≠ []) (h : e.slot.isRegistered = false)
    (name : String) :
    (writeOut core name true payload).run e = (.error (.callbackNotRegistered name), e) := by
  have hget : (get : CallbackM σ θ η (Exchange σ θ η)).run e = (e, e) := rfl
  unfold writeOut
  cases payload with
  | nil => exact absurd rfl hpayload
  | cons byte payload =>
    simp only [Bool.not_true, Bool.false_eq_true, if_false, List.isEmpty_cons, bind_run, hget, h]
    rfl

/-- The second stage of a dispatch: the answer, and that the host is left as it was. -/
theorem dispatch_returns (core : EntryPoints σ) (hmethod : method ≠ releaseMethod)
    {ending : Except Stop Bytes} {code : ResultCode} {logs : Trace}
    (hinvoke : (invoke contract handle method args length).run e = (ending, e₁))
    (hreport : report contract.name handle method ending = (code, payload, logs)) (hasOut : Bool) :
    ∃ answer session,
      (dispatch core contract handle method args length hasOut).run e =
        (answer, { e₁ with session }) ∧
      Returns core e₁.slot.isRegistered hasOut e₁.session.core code payload answer
        session.core := by
  let reporting : Exchange σ θ η :=
    { e₁ with session := { e₁.session with trace := e₁.session.trace ++ logs } }
  have hobserve : (observe logs : CallbackM σ θ η Unit).run e₁ = ((), reporting) := rfl
  unfold dispatch
  rw [if_neg hmethod]
  simp only [bind_run, hinvoke, hreport, hobserve]
  cases hasOut with
  | false => exact ⟨_, _, rfl, .dropped rfl⟩
  | true =>
    by_cases hpayload : payload = []
    · subst hpayload
      exact ⟨_, _, rfl, .empty rfl rfl⟩
    · cases hregistered : e₁.slot.isRegistered with
      | false =>
        have hrefused : reporting.slot.isRegistered = false := hregistered
        rw [writeOut_unregistered hpayload hrefused]
        exact ⟨_, _, rfl, .unregistered rfl hpayload rfl⟩
      | true =>
        have hknown : reporting.slot.isRegistered = true := hregistered
        by_cases hlong : 0x80000000 ≤ payload.length
        · rw [writeOut_registered hpayload hknown contract.name
            (CoreBuffer.fromBytes_tooLong core reporting.session hpayload hlong)]
          exact ⟨_, _, rfl, .tooLong rfl hpayload rfl hlong⟩
        have hfits : payload.length < 0x80000000 := Nat.lt_of_not_le hlong
        obtain ⟨session, hcopy, hcore⟩ :=
          CoreBuffer.fromBytes_lent core reporting.session hpayload hfits
        rw [writeOut_registered hpayload hknown contract.name hcopy]
        rcases classifyInfallible_cases
            (core.fromBytes ⟨payload.length, some payload⟩ e₁.session.core).1.status with
          ⟨hstatus, hok⟩ | ⟨hstatus, fault, herror⟩
        · simp only [reporting, hok]
          refine ⟨_, session, rfl, ?_⟩
          rw [hcore]
          exact .copied rfl hpayload rfl hfits hstatus
        · simp only [reporting, herror]
          refine ⟨_, _, rfl, ?_⟩
          have hreturns : Returns core true true e₁.session.core code payload (2, none)
              session.core := by
            rw [hcore]
            exact .uncopied rfl hpayload rfl hfits hstatus
          exact hreturns

end CallbackM

namespace Returns

variable {core : EntryPoints σ} {registered hasOut : Bool} {s after : σ} {code : ResultCode}
  {payload : Bytes} {answer : Int × Option Buffer}

/-- The code that is returned is one of the four, whatever was written out. -/
theorem code_range (h : Returns core registered hasOut s code payload answer after) :
    0 ≤ answer.1 ∧ answer.1 ≤ 3 := by
  cases h with
  | unregistered | tooLong | uncopied => exact ⟨by decide, by decide⟩
  | _ => exact code.raw_range

/-- What is written out is the payload. -/
theorem bytes_out (h : Returns core registered hasOut s code payload answer after)
    (hcore : core.Copies) {out : Buffer} (hout : answer.2 = some out) : out.bytes = payload := by
  cases h with
  | empty _ hempty =>
    obtain rfl := Option.some.inj hout
    exact hempty.symm
  | copied _ _ _ _ hstatus =>
    obtain rfl := Option.some.inj hout
    rw [hcore _ _ hstatus]
    exact List.take_length
  | _ => cases hout

end Returns

/-- Any dispatch is answered, and only a release takes anything from the table. Let the host be
in any state, registered with a core or not, and let anything be dispatched: any handle and
method, arguments of any length that are there or not, with an out buffer or without. The code is
one of the four. Method zero succeeds, writes nothing out, and takes the entry of the handle out
of the table, if there is one, and does nothing else. Any other method is refused or run, in
which case the table and the objects are left as the method leaves them; what is reported is then
handed over, and a core that copies what it is lent finds just the payload in the buffer that is
written out. A refusal is the same whatever the methods of the contract are. -/
theorem dispatch_answered (core : EntryPoints σ) (contract : Contract θ η) (e : Exchange σ θ η)
    (handle method : Nat) (args : Option Bytes) (length : Int) (hasOut : Bool) :
    ∃ answer after, (CallbackM.dispatch core contract handle method args length hasOut).run e =
        (answer, after) ∧
      (0 ≤ answer.1 ∧ answer.1 ≤ 3) ∧
      after = { e with
        session := after.session
        slot := { e.slot with table := after.slot.table }
        objects := after.objects } ∧
      (method = 0 → answer = (0, none) ∧ after.slot.table.Without e.slot.table handle ∧
        after.objects = e.objects ∧ after.session.core = e.session.core) ∧
      (method ≠ 0 → ∃ code payload,
        e.Reports contract handle method args length code payload after.slot.table
          after.objects ∧
        Returns core e.slot.isRegistered hasOut e.session.core code payload answer
          after.session.core ∧
        (core.Copies → ∀ out, answer.2 = some out → out.bytes = payload)) ∧
      (method ≠ 0 → e.refusal? handle args length ≠ none →
        ∀ other : Contract θ η, other.name = contract.name →
          (CallbackM.dispatch core other handle method args length hasOut).run e =
            (answer, after)) := by
  by_cases hmethod : method = releaseMethod
  · subst hmethod
    obtain ⟨session, hrun⟩ :=
      CallbackM.dispatch_release core contract e handle args length hasOut
    have hcore := CallbackM.dispatch_release_core core contract e handle args length hasOut
    rw [hrun] at hcore
    refine ⟨_, _, hrun, by decide, rfl, ?_, fun h => absurd rfl h, fun h => absurd rfl h⟩
    intro _
    exact ⟨rfl, e.slot.table.remove_without handle, rfl, hcore⟩
  · obtain ⟨ending, table, objects, code, payload, logs, hinvoke, hreport, hreports⟩ :=
      CallbackM.invoke_reports contract e handle method args length
    obtain ⟨answer, session, hrun, hreturns⟩ :=
      CallbackM.dispatch_returns core hmethod hinvoke hreport hasOut
    refine ⟨answer, _, hrun, hreturns.code_range, rfl, fun h => absurd h hmethod, ?_, ?_⟩
    · intro _
      exact ⟨code, payload, hreports, hreturns, fun hcore _ => hreturns.bytes_out hcore⟩
    · intro _ hrefusal other hname
      obtain ⟨fault, hfault⟩ := Option.ne_none_iff_exists'.1 hrefusal
      have hsame : (CallbackM.invoke other handle method args length).run e =
          (CallbackM.invoke contract handle method args length).run e := by
        rw [CallbackM.invoke_refused other method hfault,
          CallbackM.invoke_refused contract method hfault]
      rw [← hrun]
      unfold CallbackM.dispatch
      simp only [if_neg hmethod, CallbackM.bind_run, hsame, hname]

/-- Nobody is under handle 2, and the core is told so in a buffer of its own. -/
theorem dispatch_answered_unknown :
    let e := CallbackM.enrolled
    e.slot.table.byHandle.get? 2 = none ∧ e.slot.isRegistered = true ∧ ∃ out after,
      (CallbackM.dispatch machine Demo.greeter 2 1 none (-1) true).run e = ((2, some out), after) ∧
        out.bytes = Bytes.ofText "unknown callback handle 2" ∧ after.slot.table = e.slot.table := by
  intro e
  have hrefusal : e.refusal? 2 none (-1) = some (.unknownHandle 2) := rfl
  obtain ⟨⟨raw, out?⟩, after, hrun, -, -, -, hmethod, -⟩ :=
    dispatch_answered machine Demo.greeter e 2 1 none (-1) true
  obtain ⟨code, payload, hreports, hreturns, hbytes⟩ := hmethod (by decide)
  obtain ⟨rfl, rfl, htable⟩ := hreports.of_refusal hrefusal
  obtain ⟨rfl, out, rfl⟩ : raw = 2 ∧ ∃ out, out? = some out := by
    generalize after.session.core = left at hreturns
    cases hreturns with
    | copied => exact ⟨rfl, _, rfl⟩
    | dropped hout => cases hout
    | empty _ hempty => exact absurd hempty (by decide)
    | unregistered _ _ hslot => cases hslot.symm.trans CallbackM.enrolled_isRegistered
    | tooLong _ _ _ hlong => exact absurd hlong (by decide)
    | uncopied _ _ _ _ hstatus => exact absurd rfl hstatus
  exact ⟨rfl, CallbackM.enrolled_isRegistered, out, after, hrun, hbytes machine_copies out rfl,
    htable⟩

end Host
end CoreBridge
