import CoreBridge.Proofs.Callback.Invocation
import CoreBridge.Proofs.Host.Gate

/-!
# Registering a contract once

A contract may be registered any number of times, with any runtimes, and
whatever happens between the calls. A call that finds the contract unregistered
tries in full, and one that finds it registered does nothing (`Trial.Tries`,
`Trial.Skips`). A try that fails leaves the contract unregistered, so the first
that succeeds decides which runtime the slot holds, and all later calls skip.

The entry point of a core is handed the dispatch function, and it may use it at once: it may
release handles and run methods before it reports whether it failed. What a try does to the
table is what the entry point does to it, and nothing else.
-/
namespace CoreBridge.Host

variable {σ θ η : Type}

/-- The exchange after more was observed. -/
def Exchange.observing (e : Exchange σ θ η) (trace : Trace) : Exchange σ θ η :=
  { e with session := { e.session with trace := e.session.trace ++ trace } }

theorem Exchange.observing_nil (e : Exchange σ θ η) : e.observing [] = e := by
  rw [observing, List.append_nil]

theorem Exchange.observing_observing (e : Exchange σ θ η) (first second : Trace) :
    (e.observing first).observing second = e.observing (first ++ second) := by
  simp only [observing, List.append_assoc]

/-- The name of the entry point of a core that installs the dispatch function. -/
def Contract.initSymbol (contract : Contract θ η) (r : Runtime) : String :=
  r.symbolPrefix ++ "callback_init_" ++ contract.name

/-- The warning that a contract is registered with one core and was to be with another. -/
def Contract.otherCore (contract : Contract θ η) : Observation :=
  .log .warn s!"Callback contract '{contract.name}' is already registered with another core"

/-- A call that registers a contract: with which runtime, what the entry point of its
core does, and what happens between the call before and this one. Only registering sets
the runtime of the slot, and calls that register a contract wait for each other. -/
structure Attempt (σ θ η : Type) where
  meanwhile : CallbackM σ θ η Unit
  runtime : Runtime
  init : CallbackM σ θ η CallStatus
  meanwhile_runtime : ∀ e, (meanwhile.run e).2.slot.runtime = e.slot.runtime
  init_runtime : ∀ e, (init.run e).2.slot.runtime = e.slot.runtime

/-- A call as it was made: what it found, what it answered and what it left. -/
structure Trial (σ θ η : Type) where
  attempt : Attempt σ θ η
  before : Exchange σ θ η
  answer : Except Fault Unit
  after : Exchange σ θ η

namespace Attempt

def trial (contract : Contract θ η) (a : Attempt σ θ η) (e : Exchange σ θ η) : Trial σ θ η :=
  let before := (a.meanwhile.run e).2
  let (answer, after) := (CallbackM.register contract a.runtime a.init).run before
  { attempt := a, before, answer, after }

/-- The calls as they are made one after the other. -/
def trials (contract : Contract θ η) : List (Attempt σ θ η) → Exchange σ θ η → List (Trial σ θ η)
  | [], _ => []
  | a :: later, e => a.trial contract e :: trials contract later (a.trial contract e).after

end Attempt

namespace Trial

variable (contract : Contract θ η) (t : Trial σ θ η)

/-- Whether the call answered that the contract is registered. -/
def succeeded (t : Trial σ θ η) : Bool := t.answer.isOk

/-- The name under which the call looks for the entry point. -/
def symbol : String := contract.initSymbol t.attempt.runtime

/-- The entry point as it is run: what it reports and what it leaves. -/
def initiation : CallStatus × Exchange σ θ η :=
  t.attempt.init.run (t.before.observing [.lookedUp (t.symbol contract), .contractInit])

/-- Whether the entry point was run and reported success. -/
def Completes : Prop :=
  t.before.slot.runtime = none ∧ t.attempt.runtime.symbols.Resolves (t.symbol contract) ∧
    Succeeded (t.initiation contract).1

/-- Whether the call found the contract unregistered and tried in full: it looked the
entry point up and, if there is one, ran it and answered what its status says. -/
structure Tries : Prop where
  unregistered : t.before.slot.runtime = none
  unresolved : ¬ t.attempt.runtime.symbols.Resolves (t.symbol contract) →
    t.answer = .error (.missingSymbol (t.symbol contract)) ∧
      t.after = t.before.observing [.lookedUp (t.symbol contract)]
  resolved : t.attempt.runtime.symbols.Resolves (t.symbol contract) →
    t.answer = classifyInfallible (t.initiation contract).1 ∧
      t.after.session.core = (t.initiation contract).2.session.core ∧
      t.after.objects = (t.initiation contract).2.objects ∧
      t.after.contracts = (t.initiation contract).2.contracts
  table_eq : t.attempt.runtime.symbols.Resolves (t.symbol contract) →
    t.after.slot.table = (t.initiation contract).2.slot.table
  runtime_eq : t.after.slot.runtime = if t.succeeded then some t.attempt.runtime else none

/-- Whether the call left the contract unregistered and the table as the entry point left it, if
that was run, and as it was else. -/
structure Fails : Prop where
  unregistered : t.after.slot.isRegistered = false
  unresolved : ¬ t.attempt.runtime.symbols.Resolves (t.symbol contract) →
    t.after.slot.table = t.before.slot.table
  resolved : t.attempt.runtime.symbols.Resolves (t.symbol contract) →
    t.after.slot.table = (t.initiation contract).2.slot.table
  /-- If the entry point left the table alone, the slot is as it was. -/
  untouched : (t.initiation contract).2.slot.table = t.before.slot.table →
    t.after.slot = t.before.slot

/-- Whether the call found the contract registered with `r` and did nothing, but
warn of another core. -/
structure Skips (r : Runtime) : Prop where
  registered : t.before.slot.runtime = some r
  answer_eq : t.answer = .ok ()
  after_eq : t.after = t.before.observing
    (if r.sameCore t.attempt.runtime then [] else [contract.otherCore])

end Trial

/-! ## One call -/

namespace CallbackM

variable {contract : Contract θ η} {r existing : Runtime} {init : CallbackM σ θ η CallStatus}
  {e : Exchange σ θ η}

theorem register_registered (h : e.slot.runtime = some existing) :
    (register contract r init).run e =
      (.ok (), e.observing (if existing.sameCore r then [] else [contract.otherCore])) := by
  have hget : (get : CallbackM σ θ η (Exchange σ θ η)).run e = (e, e) := rfl
  unfold register
  simp only [bind_run, hget, h]
  cases existing.sameCore r with
  | true =>
    rw [if_pos rfl, Exchange.observing_nil]
    rfl
  | false => rfl

theorem symbol_run (name : String) : (onHost (r.symbol name)).run e =
    (match r.symbols.find? name with
      | some address => .ok address
      | none => .error (.missingSymbol name),
      e.observing [.lookedUp name]) := rfl

theorem register_unresolved (h : e.slot.runtime = none)
    (hname : ¬ r.symbols.Resolves (contract.initSymbol r)) :
    (register contract r init).run e =
      (.error (.missingSymbol (contract.initSymbol r)),
        e.observing [.lookedUp (contract.initSymbol r)]) := by
  have hget : (get : CallbackM σ θ η (Exchange σ θ η)).run e = (e, e) := rfl
  have hfind : r.symbols.find? (r.symbolPrefix ++ "callback_init_" ++ contract.name) = none := by
    rw [SymbolSource.resolves_iff, not_exists] at hname
    exact Option.eq_none_iff_forall_ne_some.2 hname
  unfold register
  simp only [bind_run, hget, h, symbol_run, hfind]
  rfl

/-- The entry point is run to its end and its payload given back, whatever its status. -/
theorem register_resolved (h : e.slot.runtime = none)
    (hname : r.symbols.Resolves (contract.initSymbol r)) :
    let initiation := init.run (e.observing [.lookedUp (contract.initSymbol r), .contractInit])
    let released : Exchange σ θ η := { initiation.2 with
      session := ((HostM.release initiation.1.payload).run initiation.2.session).2 }
    (register contract r init).run e = match classifyInfallible initiation.1 with
      | .error fault => (.error fault, released)
      | .ok () => (.ok (),
          ({ released with slot := { released.slot with runtime := some r } } :
            Exchange σ θ η).observing
              [.log .debug s!"Registered callback contract '{contract.name}'"]) := by
  intro initiation released
  have hget : (get : CallbackM σ θ η (Exchange σ θ η)).run e = (e, e) := rfl
  obtain ⟨address, hfind⟩ := SymbolSource.resolves_iff.1 hname
  unfold Contract.initSymbol at hfind
  unfold register
  have hobserve : (observe [.contractInit] : CallbackM σ θ η Unit).run
      (e.observing [.lookedUp (r.symbolPrefix ++ "callback_init_" ++ contract.name)]) =
        ((), e.observing [.lookedUp (contract.initSymbol r), .contractInit]) :=
    congrArg (Prod.mk ()) (e.observing_observing _ _)
  simp only [bind_run, hget, h, symbol_run, hfind, hobserve]
  change (StateT.run (match classifyInfallible initiation.1 with
    | .error fault => _
    | .ok () => _) released) = _
  cases classifyInfallible initiation.1 <;> rfl

end CallbackM

namespace Attempt

variable {contract : Contract θ η} (a : Attempt σ θ η) {e : Exchange σ θ η} {r : Runtime}

theorem before_runtime : (a.trial contract e).before.slot.runtime = e.slot.runtime :=
  a.meanwhile_runtime e

theorem trial_skips (h : e.slot.runtime = some r) : (a.trial contract e).Skips contract r := by
  have hbefore : (a.trial contract e).before.slot.runtime = some r := a.before_runtime.trans h
  have hrun : (CallbackM.register contract a.runtime a.init).run (a.trial contract e).before = _ :=
    CallbackM.register_registered hbefore
  exact ⟨hbefore, congrArg Prod.fst hrun, congrArg Prod.snd hrun⟩

theorem trial_unresolved (h : e.slot.runtime = none)
    (hname : ¬ a.runtime.symbols.Resolves (contract.initSymbol a.runtime)) :
    (a.trial contract e).Tries contract := by
  have hbefore : (a.trial contract e).before.slot.runtime = none := a.before_runtime.trans h
  have hrun : (CallbackM.register contract a.runtime a.init).run (a.trial contract e).before = _ :=
    CallbackM.register_unresolved hbefore hname
  have hanswer : (a.trial contract e).answer = _ := congrArg Prod.fst hrun
  have hafter : (a.trial contract e).after = _ := congrArg Prod.snd hrun
  refine ⟨hbefore, fun _ => ⟨hanswer, hafter⟩, fun h => absurd h hname, fun h => absurd h hname, ?_⟩
  rw [Trial.succeeded, hanswer, hafter]
  exact hbefore

theorem trial_resolved (h : e.slot.runtime = none)
    (hname : a.runtime.symbols.Resolves (contract.initSymbol a.runtime)) :
    (a.trial contract e).Tries contract := by
  have hbefore : (a.trial contract e).before.slot.runtime = none := a.before_runtime.trans h
  have hrun : (CallbackM.register contract a.runtime a.init).run (a.trial contract e).before = _ :=
    CallbackM.register_resolved hbefore hname
  have hruntime : ((a.trial contract e).initiation contract).2.slot.runtime = none :=
    (a.init_runtime _).trans hbefore
  change _ = match classifyInfallible ((a.trial contract e).initiation contract).1 with
    | .error fault => _
    | .ok () => _ at hrun
  cases hstatus : classifyInfallible ((a.trial contract e).initiation contract).1 with
  | error fault =>
    rw [hstatus] at hrun
    have hanswer : (a.trial contract e).answer = _ := congrArg Prod.fst hrun
    have hafter : (a.trial contract e).after = _ := congrArg Prod.snd hrun
    refine ⟨hbefore, fun h => absurd hname h, fun _ => ⟨hanswer.trans hstatus.symm, ?_⟩,
      fun _ => ?_, ?_⟩
    · rw [hafter]
      exact ⟨rfl, rfl, rfl⟩
    · rw [hafter]
      rfl
    · rw [Trial.succeeded, hanswer, hafter]
      exact hruntime
  | ok _ =>
    rw [hstatus] at hrun
    have hanswer : (a.trial contract e).answer = _ := congrArg Prod.fst hrun
    have hafter : (a.trial contract e).after = _ := congrArg Prod.snd hrun
    refine ⟨hbefore, fun h => absurd hname h, fun _ => ⟨hanswer.trans hstatus.symm, ?_⟩,
      fun _ => ?_, ?_⟩
    · rw [hafter]
      exact ⟨rfl, rfl, rfl⟩
    · rw [hafter]
      rfl
    · rw [Trial.succeeded, hanswer, hafter]
      rfl

theorem trial_tries (h : e.slot.runtime = none) : (a.trial contract e).Tries contract := by
  by_cases hname : a.runtime.symbols.Resolves (contract.initSymbol a.runtime)
  · exact a.trial_resolved h hname
  · exact a.trial_unresolved h hname

end Attempt

namespace Trial

variable {contract : Contract θ η} {t : Trial σ θ η} {r : Runtime} {fault : Fault}

theorem Tries.runtime_of_error (h : t.Tries contract) (hanswer : t.answer = .error fault) :
    t.after.slot.runtime = none := by
  rw [h.runtime_eq, succeeded, hanswer]
  rfl

/-- A call that fails does nothing to the slot but what the entry point does to its table. -/
theorem Tries.of_error (h : t.Tries contract) (hanswer : t.answer = .error fault) :
    t.Fails contract where
  unregistered := by rw [Slot.isRegistered, h.runtime_of_error hanswer]; rfl
  unresolved hname := by rw [(h.unresolved hname).2]; rfl
  resolved := h.table_eq
  untouched htable := by
    have hsame : t.after.slot.table = t.before.slot.table := by
      by_cases hname : t.attempt.runtime.symbols.Resolves (t.symbol contract)
      · exact (h.table_eq hname).trans htable
      · rw [(h.unresolved hname).2]
        rfl
    exact congrArg₂ Slot.mk hsame ((h.runtime_of_error hanswer).trans h.unregistered.symm)

/-- A try answers that the contract is registered iff its entry point was run and succeeded. -/
theorem Tries.succeeded_iff (h : t.Tries contract) : t.succeeded = true ↔ t.Completes contract := by
  by_cases hname : t.attempt.runtime.symbols.Resolves (t.symbol contract)
  · rw [succeeded, (h.resolved hname).1]
    rcases classifyInfallible_cases (t.initiation contract).1 with
      ⟨hstatus, hok⟩ | ⟨hstatus, fault, herror⟩
    · rw [hok]
      exact iff_of_true rfl ⟨h.unregistered, hname, hstatus⟩
    · rw [herror]
      exact iff_of_false Bool.false_ne_true fun hcompletes => hstatus hcompletes.2.2
  · rw [succeeded, (h.unresolved hname).1]
    exact iff_of_false Bool.false_ne_true fun hcompletes => hname hcompletes.2.1

theorem Skips.runtime_after (h : t.Skips contract r) : t.after.slot.runtime = some r := by
  rw [h.after_eq]
  exact h.registered

theorem Skips.not_completes (h : t.Skips contract r) : ¬ t.Completes contract := by
  intro hcompletes
  cases hcompletes.1.symm.trans h.registered

end Trial

/-! ## All calls -/

/-- What calls come to that register a contract one after the other. -/
structure RegistrationLaw (contract : Contract θ η) (trials : List (Trial σ θ η)) : Prop where
  /-- After each call the slot holds the runtime of the first one that succeeded. -/
  runtime_eq : ∀ {before t after}, trials = before ++ t :: after → t.after.slot.runtime =
    ((before ++ [t]).find? Trial.succeeded).map (·.attempt.runtime)
  /-- That is one whose entry point was run and succeeded. -/
  first_completes : ∀ {first}, trials.find? Trial.succeeded = some first → first.Completes contract
  /-- Until one succeeds, each call tries in full. -/
  tries : ∀ {before t after}, trials = before ++ t :: after →
    before.find? Trial.succeeded = none → t.Tries contract
  /-- After it, none does anything. -/
  skips : ∀ {before t after first}, trials = before ++ t :: after →
    before.find? Trial.succeeded = some first → t.Skips contract first.attempt.runtime
  /-- A call that fails leaves the contract unregistered, and the table to the entry point. -/
  fails : ∀ {t fault}, t ∈ trials → t.answer = .error fault → t.Fails contract
  /-- No two calls run an entry point that succeeds. -/
  once : trials.Pairwise fun t u => ¬ (t.Completes contract ∧ u.Completes contract)

namespace Attempt

variable {contract : Contract θ η} {attempts : List (Attempt σ θ η)} {e : Exchange σ θ η}
  {r : Runtime} {t : Trial σ θ η} {before after : List (Trial σ θ η)}

theorem skips_of_registered (h : e.slot.runtime = some r) (ht : t ∈ trials contract attempts e) :
    t.Skips contract r := by
  induction attempts generalizing e with
  | nil => exact absurd ht List.not_mem_nil
  | cons a later ih =>
    have hskips : (a.trial contract e).Skips contract r := a.trial_skips h
    rcases List.mem_cons.1 ht with rfl | ht
    · exact hskips
    · exact ih hskips.runtime_after ht

/-- What a call does depends on whether one before it succeeded. -/
theorem trial_cases (h : e.slot.runtime = none)
    (hsplit : trials contract attempts e = before ++ t :: after) :
    match before.find? Trial.succeeded with
    | none => t.Tries contract
    | some first => t.Skips contract first.attempt.runtime := by
  induction attempts generalizing e before with
  | nil => simp [trials] at hsplit
  | cons a later ih =>
    have htries : (a.trial contract e).Tries contract := a.trial_tries h
    cases before with
    | nil =>
      obtain ⟨rfl, -⟩ := List.cons.inj hsplit
      exact htries
    | cons u before =>
      obtain ⟨rfl, hrest⟩ := List.cons.inj hsplit
      have hruntime := htries.runtime_eq
      cases hok : (a.trial contract e).succeeded with
      | true =>
        rw [hok, if_pos rfl] at hruntime
        have hmem : t ∈ trials contract later (a.trial contract e).after := by
          rw [hrest]
          exact List.mem_append_cons_self
        rw [List.find?_cons_of_pos hok]
        exact skips_of_registered hruntime hmem
      | false =>
        rw [hok, if_neg Bool.false_ne_true] at hruntime
        rw [List.find?_cons_of_neg (by rw [hok]; exact Bool.false_ne_true)]
        exact ih hruntime hrest

theorem tries_of_none (h : e.slot.runtime = none)
    (hsplit : trials contract attempts e = before ++ t :: after)
    (hnone : before.find? Trial.succeeded = none) : t.Tries contract := by
  have hcases := trial_cases h hsplit
  rwa [hnone] at hcases

theorem skips_of_some {first : Trial σ θ η} (h : e.slot.runtime = none)
    (hsplit : trials contract attempts e = before ++ t :: after)
    (hsome : before.find? Trial.succeeded = some first) :
    t.Skips contract first.attempt.runtime := by
  have hcases := trial_cases h hsplit
  rwa [hsome] at hcases

theorem runtime_after (h : e.slot.runtime = none)
    (hsplit : trials contract attempts e = before ++ t :: after) : t.after.slot.runtime =
      ((before ++ [t]).find? Trial.succeeded).map (·.attempt.runtime) := by
  rw [List.find?_append]
  cases hfind : before.find? Trial.succeeded with
  | none =>
    rw [(tries_of_none h hsplit hfind).runtime_eq, Option.none_or]
    cases hok : t.succeeded <;> simp [hok]
  | some first => exact (skips_of_some h hsplit hfind).runtime_after

theorem fails_of_error {fault : Fault} (h : e.slot.runtime = none)
    (ht : t ∈ trials contract attempts e) (hanswer : t.answer = .error fault) :
    t.Fails contract := by
  obtain ⟨before, after, hsplit⟩ := List.append_of_mem ht
  cases hfind : before.find? Trial.succeeded with
  | none => exact (tries_of_none h hsplit hfind).of_error hanswer
  | some first => cases (skips_of_some h hsplit hfind).answer_eq.symm.trans hanswer

theorem completes_of_find? {first : Trial σ θ η} (h : e.slot.runtime = none)
    (hfirst : (trials contract attempts e).find? Trial.succeeded = some first) :
    first.Completes contract := by
  obtain ⟨hok, before, after, hsplit, hbefore⟩ := List.find?_eq_some_iff_append.1 hfirst
  have hnone : before.find? Trial.succeeded = none := by
    rw [List.find?_eq_none]
    intro u hu
    simpa using hbefore u hu
  exact (tries_of_none h hsplit hnone).succeeded_iff.1 hok

theorem completes_once (h : e.slot.runtime = none) :
    (trials contract attempts e).Pairwise fun t u =>
      ¬ (t.Completes contract ∧ u.Completes contract) := by
  induction attempts generalizing e with
  | nil => exact List.Pairwise.nil
  | cons a later ih =>
    have htries : (a.trial contract e).Tries contract := a.trial_tries h
    have hruntime := htries.runtime_eq
    cases hok : (a.trial contract e).succeeded with
    | true =>
      rw [hok, if_pos rfl] at hruntime
      have hnone : ∀ t ∈ trials contract later (a.trial contract e).after,
          ¬ t.Completes contract :=
        fun t ht => (skips_of_registered hruntime ht).not_completes
      refine List.pairwise_cons.2 ⟨fun t ht hboth => hnone t ht hboth.2, ?_⟩
      exact List.pairwise_of_forall_mem_list fun t ht u _ hboth => hnone t ht hboth.1
    | false =>
      rw [hok, if_neg Bool.false_ne_true] at hruntime
      refine List.pairwise_cons.2 ⟨fun t _ hboth => ?_, ih hruntime⟩
      exact Bool.false_ne_true (hok.symm.trans (htries.succeeded_iff.2 hboth.1))

/-- Let a contract be registered any number of times, with any runtimes, the entry points of
their cores missing, null or reporting what they like, and anything happen meanwhile. The
first call that succeeds decides which runtime the slot holds from then on: it is the only one
that runs an entry point which succeeds, those before it fail and do nothing to the slot, and
those after it do nothing but warn of another core. An entry point that uses the dispatch function
may change the table, but a call that fails adds nothing to that. -/
theorem registered_once (contract : Contract θ η) (attempts : List (Attempt σ θ η))
    (h : e.slot.runtime = none) : RegistrationLaw contract (trials contract attempts e) where
  runtime_eq := runtime_after h
  first_completes := completes_of_find? h
  tries := tries_of_none h
  skips := skips_of_some h
  fails := fails_of_error h
  once := completes_once h

/-- A contract without methods. -/
def echo : Contract Unit Unit := ⟨"echo", fun _ _ => pure ()⟩

/-- It is registered with a core whose entry points all have one address. -/
def ofAddress (identity : Nat) (address : Option Nat) : Attempt Core.State Unit Unit where
  meanwhile := pure ()
  runtime := { identity, symbolPrefix := "room_", symbols := fun _ => address }
  init := CallbackM.installDispatch "echo"
  meanwhile_runtime _ := rfl
  init_runtime _ := rfl

/-- It is registered with a core that releases a handle and then fails. -/
def ofRelease (identity handle : Nat) : Attempt Core.State Unit Unit where
  meanwhile := pure ()
  runtime := { identity, symbolPrefix := "room_", symbols := fun _ => some 8 }
  init := do
    let _ ← CallbackM.dispatch Core.machine echo handle releaseMethod none 0 true
    return { code := ResultCode.unexpected.raw }
  meanwhile_runtime _ := rfl
  init_runtime e := by
    obtain ⟨session, hdispatch⟩ :=
      CallbackM.dispatch_release Core.machine echo e handle none 0 true
    rw [CallbackM.bind_run, hdispatch]
    rfl

/-- The first two cores do not export the entry point, that of the third fails, and the fourth
core is kept. Only the third call changes the table. -/
theorem registered_once_fourth :
    let table := (({} : HandleTable Unit).insert ⟨16, ()⟩).2
    let e : Exchange Core.State Unit Unit :=
      { session := { core := {} }, slot := { table }, objects := () }
    let calls := trials echo [ofAddress 1 none, ofAddress 2 (some 0), ofRelease 3 1,
      ofAddress 4 (some 8), ofAddress 5 (some 8)] e
    e.slot.runtime = none ∧ RegistrationLaw echo calls ∧
      calls.map Trial.succeeded = [false, false, false, true, true] ∧
      (calls.map fun t => t.after.slot.runtime.map (·.identity)) =
        [none, none, none, some 4, some 4] ∧
      (calls.map fun t => t.after.slot.table.contains 1) = [true, true, false, false, false] := by
  intro table e calls
  have hstart : e.slot.runtime = none := rfl
  exact ⟨hstart, registered_once echo _ hstart, rfl, rfl, rfl⟩

end Attempt
end CoreBridge.Host
