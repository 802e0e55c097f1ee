import CoreBridge.Core.Machine
import CoreBridge.Proofs.Call.Reporting
import CoreBridge.Proofs.Callback.Dispatch
import Mathlib

/-!
# Invoking a method through the core

A proxy in the core reaches a method of a host object by way of a handle, a
region that is lent, a code and a buffer. It answers what the method comes to
when it is called directly on that object, and the method does to the host what
it does then. The buffer of an answer is made for the core, which takes it back.
-/
namespace CoreBridge

theorem Bytes.length_ofText_le (text : String) : (ofText text).length ≤ 4 * text.length := by
  have hlength (chars : List Char) : String.utf8Len chars ≤ 4 * chars.length := by
    induction chars with
    | nil => simp
    | cons char chars ih =>
      have hsize := char.utf8Size_le_four
      simp only [String.utf8Len_cons, List.length_cons]
      omega
  have h := hlength text.toList
  rw [← String.utf8ByteSize_ofList, String.ofList_toList, String.length_toList] at h
  simpa [ofText] using h

theorem length_unknownHandle_lt {handle : Nat} (h : handle < 0x10000000000000000) :
    (Bytes.ofText s!"unknown callback handle {handle}").length < 0x80000000 := by
  have hdigits : (toString handle).length ≤ 20 :=
    Nat.repr_length handle 20 (by decide) (by omega)
  have hlength : (s!"unknown callback handle {handle}").length = 24 + (toString handle).length := by
    rw [String.length_append]
    rfl
  have hbytes := Bytes.length_ofText_le s!"unknown callback handle {handle}"
  omega

/-- The bytes that an answer of a proxy travels as. -/
def Core.Proxy.carried : Except ProxyError Bytes → Bytes
  | .ok bytes => bytes
  | .error (.error bytes) => bytes
  | .error (.unexpected message) => Bytes.ofText message
  | .error _ => []

namespace Host

open CoreBridge.Core

variable {σ θ η : Type}

/-! ## Calling directly -/

/-- What a method that stops is to be seen as. -/
def Stop.seen : Stop → ProxyError
  | .failed (.error bytes) => .error bytes
  | .failed (.unexpected message) => .unexpected message
  | .failed .cancelled => .cancelled
  | .failed (.protocol fault) => .unexpected fault.message
  | .panicked panic => .unexpected panic.message

/-- What a method that leaves this frame is to be seen as; it must have read all
of its arguments. -/
def Frame.seen (frame : Frame θ η) : Except Stop Unit → Except ProxyError Bytes
  | .ok () =>
    if frame.args = [] then .ok frame.out
    else
      let place := s!"{frame.args.length} junk bytes remaining in buffer after decoding"
      .error (.unexpected s!"failed to decode buffer: {place}")
  | .error stop => .error stop.seen

/-- Calls a method on the object behind a handle, if there is one. Besides how that
is to be seen, the answer is what becomes of the table and the objects. -/
def Exchange.direct (e : Exchange σ θ η) (contract : Contract θ η) (handle method : Nat)
    (args : Bytes) : Except ProxyError Bytes × HandleTable θ × η :=
  match e.slot.table.byHandle.get? handle with
  | none => (.error (.unexpected s!"unknown callback handle {handle}"), e.slot.table, e.objects)
  | some target =>
    let (answer, frame) := (contract.invoke target method).run.run
      { args, table := e.slot.table, objects := e.objects }
    (frame.seen answer, frame.table, frame.objects)

/-! ## The dispatch of a method -/

/-- How a method ends that leaves this frame. -/
def Frame.finish (frame : Frame θ η) : Except Stop Unit → Except Stop Bytes
  | .ok () =>
    if frame.args = [] then .ok frame.out
    else .error (.failed (.protocol (.decode (.trailingBytes frame.args.length))))
  | .error stop => .error stop

theorem Frame.seen_eq (frame : Frame θ η) (answer : Except Stop Unit) :
    frame.seen answer = (frame.finish answer).mapError Stop.seen := by
  cases answer with
  | error stop => rfl
  | ok _ =>
    unfold seen finish
    split_ifs <;> rfl

/-- A method that has to read all of its arguments. -/
theorem MethodM.exhaust_run (body : MethodM θ η Unit) (start : Frame θ η) :
    (do
      body
      let frame ← getThe (Frame θ η)
      if frame.args ≠ [] then
        MethodM.fail (.protocol (.decode (.trailingBytes frame.args.length)))
      : MethodM θ η Unit).run.run start =
    let (answer, frame) := body.run.run start
    ((frame.finish answer).map fun _ => (), frame) := by
  simp only [ExceptT.run_bind, StateT.run_bind]
  generalize body.run.run start = left
  obtain ⟨answer, frame⟩ := left
  cases answer with
  | error stop => rfl
  | ok _ =>
    change (if frame.args ≠ [] then _ else _ : MethodM θ η Unit).run.run frame = _
    by_cases hrest : frame.args = []
    · simp only [Frame.finish, hrest, ne_eq, not_true_eq_false, if_false, if_true]
      rfl
    · simp only [Frame.finish, hrest, ne_eq, not_false_eq_true, if_false, if_true]
      rfl

namespace CallbackM

variable (contract : Contract θ η) (handle method : Nat) (args : Bytes)

theorem runMethod_run (e : Exchange σ θ η) (target : Instance θ) :
    let (answer, frame) := (contract.invoke target method).run.run
      { args, table := e.slot.table, objects := e.objects }
    (runMethod contract target method args).run e = (frame.finish answer, { e with
      slot := { e.slot with table := frame.table }
      objects := frame.objects }) := by
  have hbody := MethodM.exhaust_run (contract.invoke target method)
    { args, table := e.slot.table, objects := e.objects }
  dsimp only at hbody ⊢
  generalize hleft : (contract.invoke target method).run.run
    { args, table := e.slot.table, objects := e.objects } = left at hbody ⊢
  obtain ⟨answer, frame⟩ := left
  have hrun : (runMethod contract target method args).run e =
      (((frame.finish answer).map fun _ => ()).map fun () => frame.out, { e with
        slot := { e.slot with table := frame.table }
        objects := frame.objects }) := by
    unfold runMethod
    simp only [StateT.run_bind, StateT.run_get, pure_bind]
    dsimp only [ExceptT.run, StateT.run] at hbody ⊢
    rw [hbody]
    rfl
  rw [hrun]
  cases answer with
  | error stop => rfl
  | ok _ =>
    simp only [Frame.finish]
    split_ifs <;> rfl

/-- A dispatched method does what it does when it is called directly. -/
theorem invoke_run (e : Exchange σ θ η) : ∃ answer : Except Stop Bytes,
    answer.mapError Stop.seen = (e.direct contract handle method args).1 ∧
    (invoke contract handle method (some args) args.length).run e = (answer, { e with
      slot := { e.slot with table := (e.direct contract handle method args).2.1 }
      objects := (e.direct contract handle method args).2.2 }) := by
  cases hhandle : e.slot.table.byHandle.get? handle with
  | none =>
    have hget : e.slot.table.get handle = .error (.unknownHandle handle) := by
      simp only [HandleTable.get, hhandle]
    refine ⟨.error (.failed (.protocol (.unknownHandle handle))), ?_, ?_⟩
    · simp only [Exchange.direct, hhandle]
      rfl
    · rw [invoke_unknown contract hget]
      simp only [Exchange.direct, hhandle]
  | some target =>
    have hget : e.slot.table.get handle = .ok target := by
      simp only [HandleTable.get, hhandle]
    let called := (contract.invoke target method).run.run
      { args, table := e.slot.table, objects := e.objects }
    refine ⟨called.2.finish called.1, ?_, ?_⟩
    · simp only [Exchange.direct, hhandle]
      exact (Frame.seen_eq _ _).symm
    · rw [invoke_known contract hget]
      simp only [Exchange.direct, hhandle]
      exact runMethod_run contract method args e target

/-- How a method ended is read off the code and the payload that report it. -/
theorem report_spec (answer : Except Stop Bytes) :
    let reported := report contract.name handle method answer
    Proxy.outcome reported.1.raw reported.2.1 = answer.mapError Stop.seen ∧
      reported.2.1 = Proxy.carried (answer.mapError Stop.seen) ∧
      reported.2.2.OnlyLogs := by
  intro reported
  have htext (message : String) : Proxy.outcome ResultCode.unexpected.raw (Bytes.ofText message) =
      .error (.unexpected message) := by
    have hcode : ResultCode.ofRaw? ResultCode.unexpected.raw = some .unexpected := rfl
    simp only [Proxy.outcome, hcode, Bytes.toTextLossy_ofText]
  cases answer with
  | ok bytes => exact ⟨rfl, rfl, Trace.onlyLogs_nil⟩
  | error stop =>
    cases stop with
    | panicked panic => exact ⟨htext _, rfl, Trace.onlyLogs_log _ _⟩
    | failed failure =>
      cases failure with
      | error bytes => exact ⟨rfl, rfl, Trace.onlyLogs_nil⟩
      | unexpected message => exact ⟨htext _, rfl, Trace.onlyLogs_nil⟩
      | cancelled => exact ⟨rfl, rfl, Trace.onlyLogs_nil⟩
      | protocol fault => exact ⟨htext _, rfl, Trace.onlyLogs_log _ _⟩

end CallbackM

/-- Nothing comes of giving the null buffer back. -/
theorem HostM.release_null (s : Session σ) : (release .null).run s = ((), s) := by
  have hnull : releaseWith s.freeReplies .null = ([], s.freeReplies) := by
    cases s.freeReplies <;> rfl
  have hrun : (release .null).run s = ((), { s with
      freeReplies := (releaseWith s.freeReplies .null).2
      trace := s.trace ++ (releaseWith s.freeReplies .null).1 }) := rfl
  rw [hrun, hnull, List.append_nil]

/-- An entry point that succeeds and shows nothing. -/
theorem HostM.call_quiet {α : Type} {transition : σ → Reply α × σ} {s : Session σ} {value : α}
    {core : σ} (h : transition s.core = ({ value }, core)) :
    (call transition).run s = (.ok value, { s with core }) := by
  have hrun : (call transition).run s =
      ((classifyInfallible (transition s.core).1.status).map fun () => (transition s.core).1.value,
        ((release (transition s.core).1.status.payload).run ((observe []).run
          ((absorb (transition s.core).1.trace).run
            { s with core := (transition s.core).2 }).2).2).2) := rfl
  have hobserve : ((observe []).run { s with core }).2 = { s with core } :=
    congrArg (fun trace => { s with core, trace }) (List.append_nil s.trace)
  rw [hrun, h, HostM.release_null]
  exact congrArg (Prod.mk _) hobserve

/-- What the host asks for to hold a payload. -/
def asked (payload : Bytes) : Trace := if payload = [] then [] else [.fromBytes payload]

/-- A payload whose length fits is lent to the core as it is. -/
theorem CoreBuffer.fromBytes_call (core : EntryPoints σ) (s : Session σ) {payload : Bytes}
    (hpayload : payload ≠ []) (hfits : payload.length < 0x80000000) :
    let called := (HostM.call (core.fromBytes ⟨payload.length, some payload⟩)).run
      { s with trace := s.trace ++ [.fromBytes payload] }
    (fromBytes core payload).run s = (called.1.map CoreBuffer.mk, called.2) := by
  have hlent : Lent.ofBytes? payload = some ⟨payload.length, some payload⟩ := if_pos hfits
  unfold fromBytes
  rw [if_neg (by simpa using hpayload), hlent]
  rfl

/-- The core makes a buffer for a payload whose length fits. -/
theorem CoreBuffer.fromBytes_run (s : Session State) {payload : Bytes}
    (hfits : payload.length < 0x80000000) : (fromBytes machine payload).run s =
      (.ok ⟨(payloadBuffer s.core.heap payload).1⟩, { s with
        core := { s.core with heap := (payloadBuffer s.core.heap payload).2 }
        trace := s.trace ++ asked payload }) := by
  by_cases hpayload : payload = []
  · subst hpayload
    have htrace : s.trace ++ asked [] = s.trace := List.append_nil _
    rw [htrace]
    rfl
  · have hslice : (Lent.mk payload.length (some payload)).slice = payload := List.take_length
    have hmade : machine.fromBytes ⟨payload.length, some payload⟩ s.core =
        ({ value := (s.core.heap.store payload).1 },
          { s.core with heap := (s.core.heap.store payload).2 }) := by
      conv_rhs => rw [← hslice]
      rfl
    have hcall := HostM.call_quiet
      (s := { s with trace := s.trace ++ [.fromBytes payload] }) hmade
    rw [fromBytes_call machine s hpayload hfits, hcall, asked, if_neg hpayload, payloadBuffer_eq,
      if_neg hpayload]
    rfl

namespace CallbackM

theorem bind_run {α β : Type} (x : CallbackM σ θ η α) (f : α → CallbackM σ θ η β)
    (e : Exchange σ θ η) : (x >>= f).run e = (f (x.run e).1).run (x.run e).2 := rfl

/-- Registering a contract, or finding it registered, is all that its methods need. -/
theorem isRegistered_of_register {contract : Contract θ η} {r : Runtime}
    {init : CallbackM σ θ η CallStatus} {e e' : Exchange σ θ η}
    (h : (register contract r init).run e = (.ok (), e')) : e'.slot.isRegistered = true := by
  have hget : (get : CallbackM σ θ η (Exchange σ θ η)).run e = (e, e) := rfl
  unfold register at h
  simp only [bind_run, hget] at h
  cases hruntime : e.slot.runtime with
  | some existing =>
    have hslot : e.slot.isRegistered = true := by simp [Slot.isRegistered, hruntime]
    simp only [hruntime] at h
    split at h
    · obtain rfl := (Prod.mk.inj h).2
      exact hslot
    · obtain rfl := (Prod.mk.inj h).2
      exact hslot
  | none =>
    simp only [hruntime, bind_run] at h
    split at h
    · exact nomatch congrArg Prod.fst h
    · simp only [bind_run] at h
      split at h
      · exact nomatch congrArg Prod.fst h
      · obtain rfl := (Prod.mk.inj h).2
        rfl

/-- With a core that is known, writing out is what copying to the core comes to. -/
theorem writeOut_registered {core : EntryPoints σ} {e : Exchange σ θ η} {payload : Bytes}
    (hpayload : payload ≠ []) (h : e.slot.isRegistered = true)
    (name : String) {copy : Except Fault CoreBuffer} {session : Session σ}
    (hcopy : (CoreBuffer.fromBytes core payload).run e.session = (copy, session)) :
    (writeOut core name true payload).run e =
      (copy.map fun buffer => some buffer.raw, { e with session }) := by
  have hget : (get : CallbackM σ θ η (Exchange σ θ η)).run e = (e, e) := rfl
  have hhost : (onHost (CoreBuffer.fromBytes core payload) : CallbackM σ θ η _).run e =
      (copy, { e with session }) :=
    congrArg (fun r : Except Fault CoreBuffer × Session σ =>
      (r.1, ({ e with session := r.2 } : Exchange σ θ η))) hcopy
  unfold writeOut
  cases payload with
  | nil => exact absurd rfl hpayload
  | cons byte payload =>
    simp only [Bool.not_true, Bool.false_eq_true, if_false, List.isEmpty_cons, bind_run, hget, h,
      hhost]
    rfl

/-- A payload is written to a buffer of the core. -/
theorem writeOut_run (name : String) {e : Exchange State θ η}
    (hregistered : e.slot.isRegistered = true) {payload : Bytes}
    (hfits : payload.length < 0x80000000) :
    (writeOut machine name true payload).run e =
      (.ok (some (payloadBuffer e.session.core.heap payload).1), { e with
        session := { e.session with
          core := { e.session.core with heap := (payloadBuffer e.session.core.heap payload).2 }
          trace := e.session.trace ++ asked payload } }) := by
  by_cases hpayload : payload = []
  · subst hpayload
    have htrace : e.session.trace ++ asked [] = e.session.trace := List.append_nil _
    rw [htrace]
    rfl
  · rw [writeOut_registered hpayload hregistered name (CoreBuffer.fromBytes_run e.session hfits)]
    rfl

/-- A dispatch that runs a method reports what it comes to when it is called directly. -/
theorem dispatch_run {contract : Contract θ η} {e : Exchange State θ η} {handle method : Nat}
    {args : Bytes} (hregistered : e.slot.isRegistered = true) (hmethod : method ≠ releaseMethod)
    (hpayload :
      (Proxy.carried (e.direct contract handle method args).1).length < 0x80000000) :
    let direct := e.direct contract handle method args
    let payload := Proxy.carried direct.1
    let made := payloadBuffer e.session.core.heap payload
    ∃ (code : ResultCode) (logs : Trace), Proxy.outcome code.raw payload = direct.1 ∧
      logs.OnlyLogs ∧
      (dispatch machine contract handle method (some args) args.length true).run e =
        ((code.raw, some made.1), { e with
          session := { e.session with
            core := { e.session.core with heap := made.2 }
            trace := e.session.trace ++ logs ++ asked payload }
          slot := { e.slot with table := direct.2.1 }
          objects := direct.2.2 }) := by
  intro direct payload made
  obtain ⟨answer, hseen, hinvoke⟩ := invoke_run contract handle method args e
  obtain ⟨houtcome, hcarried, hlogs⟩ := report_spec contract handle method answer
  rw [hseen] at houtcome hcarried
  rcases hreport : report contract.name handle method answer with ⟨code, reported, logs⟩
  rw [hreport] at houtcome hcarried hlogs
  obtain rfl : reported = payload := hcarried
  refine ⟨code, logs, houtcome, hlogs, ?_⟩
  let reporting : Exchange State θ η := { e with
    session := { e.session with trace := e.session.trace ++ logs }
    slot := { e.slot with table := direct.2.1 }
    objects := direct.2.2 }
  have hobserve : (observe logs : CallbackM State θ η Unit).run { e with
      slot := { e.slot with table := direct.2.1 }
      objects := direct.2.2 } = ((), reporting) := rfl
  have hwritten := writeOut_run contract.name (e := reporting) hregistered hpayload
  unfold dispatch
  rw [if_neg hmethod]
  simp only [bind_run, hinvoke, hreport]
  rw [hobserve, hwritten]
  rfl

/-- What a proxy makes of a dispatch. -/
theorem proxy_invoke_run {contract : Contract θ η} {e e' : Exchange State θ η} {p : Proxy}
    {method : Nat} {args : Bytes} {code : Int} {buffer : Buffer} (hmethod : method ≠ releaseMethod)
    (hargs : args.length < 0x80000000)
    (hdispatch : (dispatch machine contract p.handle method (some args) args.length true).run e =
      ((code, some buffer), e')) :
    (p.invoke (dispatcher machine contract) method args).run e =
      (Proxy.outcome code buffer.bytes, { e' with
        session := { e'.session with
          trace := e'.session.trace ++ buffer.owned.map .reclaimed } }) := by
  rw [Proxy.invoke_dispatched _ _ hmethod hargs, dispatcher]
  simp only [StateT.run_bind, hdispatch]
  cases buffer with
  | null =>
    have htrace : e'.session.trace ++ [] = e'.session.trace := List.append_nil _
    simp only [Buffer.owned, List.map_nil, htrace]
    rfl
  | allocated a => rfl

/-- A method that the core invokes through a proxy. On a handle of the table it
comes to what it does when it is called directly, on another it is not called and
the invocation fails; the payload of every answer, empty or not, arrives as it
is. The host is left as the direct call leaves it. Besides log records, all that
happens is that the buffer of an answer, if it has one, is made and taken back. -/
theorem invoke_eq_direct {contract : Contract θ η} {e : Exchange State θ η} {p : Proxy}
    {method : Nat} {args : Bytes} (hregistered : e.slot.isRegistered = true)
    (hmethod : method ≠ releaseMethod) (hargs : args.length < 0x80000000)
    (hhandle : p.handle < 0x10000000000000000)
    (hpayload : e.slot.table.contains p.handle = true →
      (Proxy.carried (e.direct contract p.handle method args).1).length < 0x80000000) :
    let direct := e.direct contract p.handle method args
    let payload := Proxy.carried direct.1
    let issued := e.session.core.heap.issued
    ∃ logs : Trace, logs.OnlyLogs ∧
      (p.invoke (dispatcher machine contract) method args).run e = (direct.1, { e with
        session := { e.session with
          core := { e.session.core with heap := ⟨issued + if payload = [] then 0 else 1⟩ }
          trace := e.session.trace ++ logs ++ if payload = [] then [] else
            [.fromBytes payload, .reclaimed (.allocated ⟨issued, payload, payload.length⟩)] }
        slot := { e.slot with table := direct.2.1 }
        objects := direct.2.2 }) := by
  intro direct payload issued
  have hfits : payload.length < 0x80000000 := by
    cases hget : e.slot.table.byHandle.get? p.handle with
    | some target => exact hpayload (by simp [HandleTable.contains, Table.contains, hget])
    | none =>
      have hunknown : payload = Bytes.ofText s!"unknown callback handle {p.handle}" := by
        simp only [payload, direct, Exchange.direct, hget]
        rfl
      rw [hunknown]
      exact length_unknownHandle_lt hhandle
  obtain ⟨code, logs, houtcome, hlogs, hdispatch⟩ := dispatch_run hregistered hmethod hfits
  refine ⟨logs, hlogs, ?_⟩
  rw [proxy_invoke_run hmethod hargs hdispatch, payloadBuffer_bytes, houtcome, payloadBuffer_eq]
  by_cases hempty : payload = []
  · simp [payload, direct, hempty, asked, Buffer.owned, issued]
  · rw [if_neg hempty, if_neg hempty, if_neg hempty]
    simp only [payload, direct] at hempty
    simp [payload, direct, hempty, asked, Buffer.owned, issued]

/-- A core that exports every symbol. -/
def everySymbol : Runtime := { identity := 1, symbolPrefix := "demo_", symbols := fun _ => some 1 }

/-- Registers the contract of greeters and hands a rude one to the core. -/
def enroll : CallbackM State Demo.Manner Unit Nat := do
  let _ ← register Demo.greeter everySymbol (installDispatch Demo.greeter.name)
  lower { address := 32, content := .rude }

/-- What a host has then. -/
def enrolled : Exchange State Demo.Manner Unit :=
  (enroll.run { session := { core := {} }, objects := () }).2

theorem enrolled_isRegistered : enrolled.slot.isRegistered = true := by
  have hregister : (register Demo.greeter everySymbol (installDispatch Demo.greeter.name)).run
      ({ session := { core := {} }, objects := () } : Exchange State Demo.Manner Unit) =
    (.ok (), _) := rfl
  have hregistered := isRegistered_of_register hregister
  exact hregistered

/-- The rude greeter is reached under its handle, and nobody under the next one. -/
theorem invoke_eq_direct_enrolled :
    (∃ e, ((Proxy.mk "greeter" 1).invoke (dispatcher machine Demo.greeter) 1
        [0, 0, 0, 1, 0x61]).run enrolled = (.error (.unexpected "go away, a"), e)) ∧
      ∃ e, ((Proxy.mk "greeter" 2).invoke (dispatcher machine Demo.greeter) 1
        [0, 0, 0, 1, 0x61]).run enrolled =
          (.error (.unexpected "unknown callback handle 2"), e) := by
  have hmethod : 1 ≠ releaseMethod := by decide
  have hargs : ([0, 0, 0, 1, 0x61] : Bytes).length < 0x80000000 := by decide
  have hpayload (handle : Nat) (h : handle = 1 ∨ handle = 2) :
      enrolled.slot.table.contains (Proxy.mk "greeter" handle).handle = true →
        (Proxy.carried (enrolled.direct Demo.greeter (Proxy.mk "greeter" handle).handle 1
          [0, 0, 0, 1, 0x61]).1).length < 0x80000000 := by
    obtain rfl | rfl := h <;> exact fun _ => by decide
  obtain ⟨_, _, hknown⟩ := invoke_eq_direct enrolled_isRegistered hmethod hargs (by decide)
    (hpayload 1 (.inl rfl))
  obtain ⟨_, _, hunknown⟩ := invoke_eq_direct enrolled_isRegistered hmethod hargs (by decide)
    (hpayload 2 (.inr rfl))
  exact ⟨⟨_, hknown⟩, _, hunknown⟩

end CallbackM
end Host
end CoreBridge
