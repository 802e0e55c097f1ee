import CoreBridge.Proofs.Call.Transparency
import CoreBridge.Proofs.Callback.Invocation
import CoreBridge.Proofs.Callback.Loans
import CoreBridge.Proofs.Wire.Canonical

/-!
# Operations that own a handle

An operation that takes ownership of a handle invokes one method through it and
releases it, whatever comes of the method: the value, the error of the operation,
or the text of a panic reach the caller, and the handle is out of the table.
What is dispatched on the way does not depend on any answer, so it is recorded
next to the run (`Core.Dispatcher.recording`).
-/
namespace CoreBridge

namespace Core

/-- A dispatch as it crosses the boundary. -/
structure Dispatched where
  dispatch : String
  handle : Nat
  method : Nat
  args : Option Bytes
  length : Int
deriving DecidableEq, Repr

section Recording

variable {m : Type → Type} [Monad m] (d : Dispatcher m)

/-- The dispatcher that also keeps a record of the dispatches. -/
def Dispatcher.recording : Dispatcher (StateT (List Dispatched) m) where
  dispatch name handle method args length := do
    modify (· ++ [⟨name, handle, method, args, length⟩])
    StateT.lift (d.dispatch name handle method args length)
  note trace := StateT.lift (d.note trace)

namespace Proxy

variable (p : Proxy) (method : Nat) (args : Bytes)

/-- What is dispatched to invoke a method: nothing for the reserved one, nor for arguments
whose length a dispatch has no room for. -/
def invocations : List Dispatched :=
  if method = releaseMethod ∨ 0x80000000 ≤ args.length then []
  else [⟨p.dispatch, p.handle, method, some args, args.length⟩]

/-- What is dispatched to release the handle. -/
def release : Dispatched := ⟨p.dispatch, p.handle, releaseMethod, none, 0⟩

variable [LawfulMonad m] (record : List Dispatched)

omit p in
theorem reclaim_recording (buffer : Buffer) : (reclaim d.recording buffer).run record =
    (fun _ => ((), record)) <$> reclaim d buffer := by
  unfold reclaim
  by_cases hnull : buffer.isNull <;> simp [hnull, Dispatcher.recording]

theorem invoke_recording : (p.invoke d.recording method args).run record =
    (fun answer => (answer, record ++ p.invocations method args)) <$> p.invoke d method args := by
  unfold invoke invocations refusal?
  by_cases hmethod : method = releaseMethod
  · simp [hmethod]
  · by_cases hargs : 0x80000000 ≤ args.length
    · simp [hmethod, hargs]
    · simp only [hmethod, hargs, if_false, or_self, StateT.run_bind, reclaim_recording]
      simp [Dispatcher.recording]

theorem drop_recording : (p.drop d.recording).run record =
    (fun _ => ((), record ++ [p.release])) <$> p.drop d := by
  unfold drop release
  simp only [StateT.run_bind, reclaim_recording]
  simp only [Dispatcher.recording, StateT.run_bind, StateT.run_modify, StateT.run_lift, pure_bind,
    bind_assoc, map_bind, bind_map_left]
  refine bind_congr fun answer => bind_congr fun _ => ?_
  split <;> simp

end Proxy

/-- What is dispatched to relay a method to the object behind a handle. -/
def relayDispatches (contracts : Contracts) (who : String) (handle method : Nat) (args : Bytes) :
    List Dispatched :=
  match Proxy.forContract? contracts who handle with
  | none => []
  | some proxy => proxy.invocations method args ++ [proxy.release]

/-- The record of a relay says what is dispatched, and changes nothing about the relay. -/
theorem relay_recording [LawfulMonad m] (contracts : Contracts) (who : String)
    (schema : Wire.Schema) (error : Wire.Ty) (handle method : Nat) (args : Bytes) :
    (Demo.relay d.recording contracts who schema error handle method args).run [] =
      (fun outcome => (outcome, relayDispatches contracts who handle method args)) <$>
        Demo.relay d contracts who schema error handle method args := by
  unfold Demo.relay relayDispatches
  cases Proxy.forContract? contracts who handle with
  | none => simp
  | some proxy => simp [Proxy.invoke_recording, Proxy.drop_recording]

end Recording
end Core

open CoreBridge.Core CoreBridge.Host

namespace Demo

variable {θ η : Type} (contract : Contract θ η) (schema : Wire.Schema) (error : Wire.Ty)
  (handle method : Nat)

/-- The call of an operation that relays, with the dispatches made during it. -/
def recordRelay (args : Buffer) :
    CallbackM State θ η (Except (CallError Wire.Value) CoreBuffer × List Dispatched) := do
  let contracts := (← get).contracts
  let (outcome, record) ← (relay (CallbackM.dispatcher machine contract).recording contracts
    contract.name schema error handle method args.bytes).run []
  let answer ← CallbackM.onHost do
    let result ← HostM.callFallible (schema.decode error) (runReturningBytes outcome)
    return result.map CoreBuffer.mk
  return (answer, record)

theorem recordRelay_run (args : Buffer) (e : Exchange State θ η) :
    let (answer, e') := (callRelay contract schema error handle method args).run e
    (recordRelay contract schema error handle method args).run e =
      ((answer, relayDispatches e.contracts contract.name handle method args.bytes), e') := by
  have hget : (get : CallbackM State θ η (Exchange State θ η)).run e = (e, e) := rfl
  unfold callRelay recordRelay
  simp only [CallbackM.bind_run, hget, relay_recording]
  rfl

/-- What a caller learns of a method that is relayed, by what the method comes to. -/
def learnt (who : String) : Except ProxyError Bytes → Except (CallError Wire.Value) Bytes
  | .ok bytes => .ok bytes
  | .error (.error bytes) =>
    match schema.decode error bytes with
    | .ok v => .error (.domain v)
    | .error reason =>
      .error (.fault (.nativePanic s!"undecodable {who} error: {reason.message}"))
  | .error other => .error (.fault (.nativePanic s!"{who} failed: {other.message}"))

variable {schema error}

/-- The caller of an operation that returns bytes learns what its body came to. -/
theorem callFallible_returningBytes (hdistinct : schema.IsDistinct) {outcome : Outcome Bytes}
    (hfailed : ∀ v, outcome = .failed v → v.HasType schema schema error ∧ v.IsWellFormed)
    (s : Session State) :
    ((HostM.callFallible (schema.decode error) (runReturningBytes outcome)).run s).1.map
      Buffer.bytes = answer .domain .fault outcome := by
  obtain ⟨s', hrun, -⟩ :=
    HostM.callFallible_run (schema.decode error) ((Body.storing outcome).entry .null) s
  have hreport := classify_report (t := error)
    (Body.storing outcome s.core).2.2.heap .null (Body.storing outcome s.core).1 hdistinct (by
      intro v hv
      apply hfailed
      cases outcome with
      | failed w =>
        obtain rfl : w = v := Outcome.failed.inj hv
        rfl
      | _ => cases hv)
  rw [← Body.entry_storing, congrArg Prod.fst hrun, Body.entry_status, Body.entry_value, hreport]
  cases outcome with
  | returned bytes => rfl
  | failed v =>
    simp only [Body.storing, answer]
    cases Wire.encode v <;> rfl
  | panicked panic => cases panic <;> rfl

/-- An error that is relayed has the form that the method failed with, so it can be reported. -/
theorem hasForm_of_relayed {names : List String} (hschema : schema.IsPlain names)
    (herror : error.IsPlain names) {who : String} {heard : Except ProxyError Bytes}
    {v : Wire.Value} (h : relayed who schema error heard = .failed v) :
    ∃ bytes, v.HasForm schema schema error bytes := by
  unfold relayed at h
  split at h
  · cases h
  · rename_i bytes
    split at h
    · rename_i hdecode
      obtain rfl := Outcome.failed.inj h
      exact ⟨bytes, Wire.Schema.hasForm_of_decode hschema herror hdecode⟩
    · cases h
  · cases h

/-- A text with a part that is not empty is the text of a panic. -/
theorem answer_text {first middle last : String} (h : middle ≠ "") :
    answer (α := Bytes) CallError.domain CallError.fault
      (.panicked (.text (first ++ middle ++ last))) =
        .error (.fault (.nativePanic (first ++ middle ++ last))) := by
  have hne : first ++ middle ++ last ≠ "" := fun hempty =>
    h (String.append_eq_empty_iff.1 (String.append_eq_empty_iff.1 hempty).1).2
  simp only [answer, if_neg hne]

/-- Nothing is lost between the method that is relayed and the caller of the operation. -/
theorem answer_relayed {names : List String} (hschema : schema.IsPlain names)
    (herror : error.IsPlain names) (who : String) (heard : Except ProxyError Bytes) :
    answer .domain .fault (relayed who schema error heard) = learnt schema error who heard := by
  cases heard with
  | ok bytes => rfl
  | error failure =>
    cases failure with
    | error bytes =>
      cases hdecode : schema.decode error bytes with
      | ok v =>
        have hrelayed : relayed who schema error (.error (.error bytes)) = .failed v := by
          simp only [relayed, hdecode]
        obtain ⟨form, hform⟩ := hasForm_of_relayed hschema herror hrelayed
        have hencode := Wire.encode_eq_ok.2 hform.emit_eq
        simp only [hrelayed, answer, learnt, hencode, hdecode]
      | error reason =>
        simp only [relayed, learnt, hdecode]
        exact answer_text (by decide)
    | _ => exact answer_text (by decide)

/-- The caller of an operation whose errors have one wire form each learns what the
relayed method comes to. -/
theorem callFallible_relayed {names : List String} (hdistinct : schema.IsDistinct)
    (hschema : schema.IsPlain names) (herror : error.IsPlain names) (who : String)
    (heard : Except ProxyError Bytes) (s : Session State) :
    ((HostM.callFallible (schema.decode error)
      (runReturningBytes (relayed who schema error heard))).run s).1.map Buffer.bytes =
        learnt schema error who heard := by
  rw [← answer_relayed hschema herror]
  refine callFallible_returningBytes hdistinct (fun v hv => ?_) s
  obtain ⟨bytes, hform⟩ := hasForm_of_relayed hschema herror hv
  exact ⟨hform.hasType, hform.isWellFormed⟩

end Demo

namespace Host

variable {θ η : Type} {contract : Contract θ η}

/-- Whether a contract has been registered: some registration succeeded that found
it not registered yet, and what that left is still there. -/
def Exchange.Enrolled (contract : Contract θ η) (e : Exchange State θ η) : Prop :=
  ∃ (r : Runtime) (before after : Exchange State θ η), before.slot.runtime = none ∧
    (CallbackM.register contract r (CallbackM.installDispatch contract.name)).run before =
      (.ok (), after) ∧
    e.slot.runtime = after.slot.runtime ∧
    e.contracts.get? contract.name = after.contracts.get? contract.name

namespace CallbackM

/-- The dispatch function of a contract is installed when it is registered. -/
theorem contracts_of_register {r : Runtime} {before after : Exchange State θ η}
    (hnew : before.slot.runtime = none)
    (h : (register contract r (installDispatch contract.name)).run before = (.ok (), after)) :
    after.contracts.get? contract.name = some contract.name := by
  have hget : (get : CallbackM State θ η (Exchange State θ η)).run before = (before, before) := rfl
  unfold register at h
  simp only [bind_run, hget, hnew] at h
  split at h
  · cases congrArg Prod.fst h
  · simp only [bind_run] at h
    split at h
    · cases congrArg Prod.fst h
    · obtain rfl := (Prod.mk.inj h).2
      exact (Table.get?_set _ _ _ _).trans (if_pos rfl)

end CallbackM

namespace Exchange

/-- What the core hears of a method of an object: the reserved one does not reach it. -/
def heard (e : Exchange State θ η) (contract : Contract θ η) (target : Instance θ) (method : Nat)
    (args : Bytes) : Except ProxyError Bytes :=
  if method = releaseMethod then .error (.reservedMethod method)
  else
    let (answer, frame) := (contract.invoke target method).run.run
      { args, table := e.slot.table, objects := e.objects }
    frame.seen answer

variable {e : Exchange State θ η}

theorem Enrolled.isRegistered (h : e.Enrolled contract) : e.slot.isRegistered = true := by
  obtain ⟨r, before, after, hnew, hregister, hruntime, -⟩ := h
  have hafter := CallbackM.isRegistered_of_register hregister
  simpa only [Slot.isRegistered, hruntime] using hafter

theorem Enrolled.forContract? (h : e.Enrolled contract) (handle : Nat) :
    Proxy.forContract? e.contracts contract.name handle = some ⟨contract.name, handle⟩ := by
  obtain ⟨r, before, after, hnew, hregister, -, hcontracts⟩ := h
  rw [Proxy.forContract?, hcontracts, CallbackM.contracts_of_register hnew hregister]
  rfl

end Exchange

open Demo

variable {schema : Wire.Schema} {error : Wire.Ty} {e : Exchange State θ η} {target : Instance θ}
  {handle method : Nat} {args : Bytes}

/-- The proxy that relays a method answers what is heard of it. -/
theorem Exchange.Enrolled.invoke_run (henrolled : e.Enrolled contract)
    (hhandle : e.slot.table.byHandle.get? handle = some target) (hargs : args.length < 0x80000000)
    (hpayload : (Proxy.carried (e.heard contract target method args)).length < 0x80000000) :
    ∃ e', ((Proxy.mk contract.name handle).invoke (CallbackM.dispatcher machine contract) method
      args).run e = (e.heard contract target method args, e') := by
  by_cases hmethod : method = releaseMethod
  · refine ⟨e, ?_⟩
    rw [Proxy.invoke_refused _ _ (if_pos hmethod), heard, if_pos hmethod, hmethod]
    rfl
  · have hheard : e.heard contract target method args =
        (e.direct contract handle method args).1 := by
      simp only [heard, if_neg hmethod, direct, hhandle]
      rfl
    rw [hheard] at hpayload ⊢
    obtain ⟨code, logs, houtcome, -, hdispatch⟩ :=
      CallbackM.dispatch_run henrolled.isRegistered hmethod hpayload
    have hinvoke := CallbackM.proxy_invoke_run (p := ⟨contract.name, handle⟩) hmethod hargs
      hdispatch
    rw [payloadBuffer_bytes, houtcome] at hinvoke
    exact ⟨_, hinvoke⟩

variable (schema error) in
/-- A relay hears of the method and leaves the handle released. -/
theorem Exchange.Enrolled.relay_run (henrolled : e.Enrolled contract)
    (hhandle : e.slot.table.byHandle.get? handle = some target) (hargs : args.length < 0x80000000)
    (hpayload : (Proxy.carried (e.heard contract target method args)).length < 0x80000000) :
    ∃ e', (relay (CallbackM.dispatcher machine contract) e.contracts contract.name schema error
        handle method args).run e =
          (relayed contract.name schema error (e.heard contract target method args), e') ∧
      e'.slot.table.byHandle.get? handle = none := by
  obtain ⟨e₁, hinvoke⟩ := henrolled.invoke_run hhandle hargs hpayload
  obtain ⟨e₂, hdrop, hreleased⟩ : ∃ e₂,
      ((Proxy.mk contract.name handle).drop (CallbackM.dispatcher machine contract)).run e₁ =
        ((), e₂) ∧ e₂.slot.table.byHandle.get? handle = none := by
    obtain ⟨session, hdrop⟩ := CallbackM.drop_run machine contract e₁ ⟨contract.name, handle⟩
    exact ⟨_, hdrop, by simp⟩
  refine ⟨e₂, ?_, hreleased⟩
  unfold relay
  rw [henrolled.forContract?]
  simp only [CallbackM.bind_run, hinvoke, hdrop]
  rfl

/-- An operation that owns a handle uses it for one method and releases it. Suppose a
contract has been registered, and an object that is not in the table is handed to
the core, as an argument of an operation that relays one of its methods. Besides
the release of the handle, at the end, the core dispatches the method, unless it is
the reserved one, and nothing else; the handle resolves no more. The caller
learns what the object makes of the method: the value; the error, if the object
fails with the wire form of one of the operation's; and otherwise a panic that
says why there is neither. -/
theorem relay_of_lowered {names : List String} (hdistinct : schema.IsDistinct)
    (hschema : schema.IsPlain names) (herror : error.IsPlain names)
    (henrolled : e.Enrolled contract) (hvalid : e.slot.table.Valid) (target : Instance θ)
    (hnew : ∀ h i, e.slot.table.byHandle.get? h = some i → i.address ≠ target.address)
    (method : Nat) (args : Buffer) (hargs : args.length < 0x80000000) :
    let handle := ((CallbackM.lower target).run e).1
    let lent := ((CallbackM.lower target).run e).2
    let heard := lent.heard contract target method args.bytes
    let call := (callRelay contract schema error handle method args).run lent
    (Proxy.carried heard).length < 0x80000000 →
    call.1.map CoreBuffer.bytes = learnt schema error contract.name heard ∧
    (∀ v bytes, schema.decode error bytes = .ok v ↔
      v.HasType schema schema error ∧ v.IsWellFormed ∧ Wire.encode v = .ok bytes) ∧
    (recordRelay contract schema error handle method args).run lent =
      ((call.1,
        (if method = releaseMethod then []
          else [⟨contract.name, handle, method, some args.bytes, args.length⟩]) ++
        [⟨contract.name, handle, releaseMethod, none, 0⟩]), call.2) ∧
    call.2.slot.table.byHandle.get? handle = none := by
  intro handle lent heard call hpayload
  have hhandle : lent.slot.table.byHandle.get? handle = some target :=
    (HandleTable.insert_spec hvalid fun h i hget haddress =>
      absurd haddress (hnew h i hget)).1
  have hlent : lent.Enrolled contract := henrolled
  obtain ⟨e', hrelay, hreleased⟩ := hlent.relay_run schema error hhandle hargs
    hpayload
  -- The caller's own step does not touch the table.
  let answered := (HostM.callFallible (schema.decode error)
    (runReturningBytes (relayed contract.name schema error heard))).run e'.session
  have hcall : call = (answered.1.map CoreBuffer.mk, { e' with session := answered.2 }) := by
    have hget : (get : CallbackM State θ η (Exchange State θ η)).run lent = (lent, lent) := rfl
    simp only [call, callRelay, CallbackM.bind_run, hget, hrelay]
    rfl
  have hanswer : answered.1.map Buffer.bytes = learnt schema error contract.name heard :=
    callFallible_relayed hdistinct hschema herror contract.name heard e'.session
  have hdispatches : relayDispatches lent.contracts contract.name handle method args.bytes =
      (if method = releaseMethod then []
        else [⟨contract.name, handle, method, some args.bytes, args.length⟩]) ++
      [⟨contract.name, handle, releaseMethod, none, 0⟩] := by
    have hfits : ¬ 0x80000000 ≤ args.bytes.length := Nat.not_le_of_gt hargs
    simp only [relayDispatches, hlent.forContract?, Proxy.invocations, Proxy.release, hfits,
      or_false]
    rfl
  refine ⟨?_, fun v bytes => ⟨fun hdecode => ?_, fun hv => ?_⟩, ?_, ?_⟩
  · rw [hcall, ← hanswer]
    cases answered.1 <;> rfl
  · have hform := Wire.Schema.hasForm_of_decode hschema herror hdecode
    exact ⟨hform.hasType, hform.isWellFormed, Wire.encode_eq_ok.2 hform.emit_eq⟩
  · exact Wire.Schema.decode_of_encode hdistinct hv.1 hv.2.1 hv.2.2
  · rw [← hdispatches]
    exact recordRelay_run contract schema error handle method args lent
  · rw [hcall]
    exact hreleased

/-- A host that has registered a contract and nothing else. -/
def registered (contract : Contract θ η) (objects : η) : Exchange State θ η :=
  ((CallbackM.register contract CallbackM.everySymbol
    (CallbackM.installDispatch contract.name)).run { session := { core := {} }, objects }).2

theorem registered_enrolled (contract : Contract θ η) (objects : η) :
    (registered contract objects).Enrolled contract :=
  ⟨CallbackM.everySymbol, { session := { core := {} }, objects }, registered contract objects,
    rfl, rfl, rfl, rfl⟩

/-- A polite greeter turns a guest away, which the caller learns as the error of the
operation; a listener is never reached by the reserved method, which the caller learns
as a panic. -/
theorem relay_of_lowered_failing :
    let mallory : Buffer := .allocated ⟨0, [0, 0, 0, 7, 109, 97, 108, 108, 111, 114, 121], 11⟩
    let polite := (CallbackM.lower { address := 32, content := .polite }).run
      (registered greeter ())
    let greet := (callRelay greeter Wire.Specimens.schema greetError polite.1 1 mallory).run
      polite.2
    let ann := (CallbackM.lower { address := 48, content := "ann" }).run (registered listener {})
    let notify := (callRelay listener Wire.Specimens.schema roomError ann.1 0 .null).run ann.2
    (polite.1 = 1 ∧ greet.1.map CoreBuffer.bytes = .error (.domain notOnTheList) ∧
      (recordRelay greeter Wire.Specimens.schema greetError polite.1 1 mallory).run polite.2 =
        ((greet.1, [⟨"greeter", 1, 1, some mallory.bytes, 11⟩, ⟨"greeter", 1, 0, none, 0⟩]),
          greet.2) ∧
      greet.2.slot.table.byHandle.get? polite.1 = none) ∧
    ann.1 = 1 ∧ notify.1.map CoreBuffer.bytes =
        .error (.fault (.nativePanic "listener failed: method index 0 is reserved")) ∧
      (recordRelay listener Wire.Specimens.schema roomError ann.1 0 .null).run ann.2 =
        ((notify.1, [⟨"listener", 1, 0, none, 0⟩]), notify.2) ∧
      notify.2.slot.table.byHandle.get? ann.1 = none := by
  have hdistinct : Wire.Specimens.schema.IsDistinct := by decide
  have hschema : Wire.Specimens.schema.IsPlain ["RoomError", "GreetError"] := by decide
  have hgreetError : greetError.IsPlain ["RoomError", "GreetError"] := by decide
  have hroomError : roomError.IsPlain ["RoomError", "GreetError"] := by decide
  obtain ⟨hgreet, -, hgreeted, hreleased⟩ := relay_of_lowered hdistinct hschema hgreetError
    (registered_enrolled greeter ()) HandleTable.valid_empty { address := 32, content := .polite }
    (fun _ _ h => by cases h) 1
    (.allocated ⟨0, [0, 0, 0, 7, 109, 97, 108, 108, 111, 114, 121], 11⟩) (by decide) (by decide)
  obtain ⟨hnotify, -, hnotified, hforgotten⟩ := relay_of_lowered hdistinct hschema hroomError
    (registered_enrolled listener {}) HandleTable.valid_empty { address := 48, content := "ann" }
    (fun _ _ h => by cases h) 0 .null (by decide) (by decide)
  have hrecord {α β γ : Type} {a : α} {b b' : β} {c : γ} (h : b = b') :
      ((a, b), c) = ((a, b'), c) := h ▸ rfl
  exact ⟨⟨by rfl, hgreet.trans (by rfl), hgreeted.trans (hrecord (by decide)), hreleased⟩,
    by rfl, hnotify.trans (by rfl), hnotified.trans (hrecord (by decide)), hforgotten⟩

end Host
end CoreBridge
