import CoreBridge.Proofs.Call.Classification
import CoreBridge.Proofs.Callback.Relay

/-!
# Proxies of a core over time

A core makes proxies with a dispatch function that it is given or with the one installed for a
contract, invokes methods through them and drops them, and meanwhile contracts are initialised
again with other functions. A proxy stays with the function and the handle that it was made
with. What it dispatches is told by what is done to it from then on: its invocations up to its
drop, the release at its drop, and nothing else (`ProxyLaw`).
-/
namespace CoreBridge

/-- The buffers that the core took back, in order. -/
def Trace.reclaimed (trace : Trace) : List Buffer :=
  trace.filterMap fun
    | .reclaimed buffer => some buffer
    | _ => none

theorem Trace.reclaimed_append (first second : Trace) :
    (first ++ second).reclaimed = first.reclaimed ++ second.reclaimed :=
  List.filterMap_append

namespace Core

/-! ## Dispatch functions -/

/-- A dispatch with what the dispatch function answered: a code and a buffer. -/
structure Answered where
  sent : Dispatched
  code : Int
  out : Buffer

/-- The dispatch functions of a host. What they answer may depend on all that was dispatched
before. -/
abbrev Functions := List Answered → Dispatched → Int × Buffer

/-- What is seen while the core uses a proxy: the dispatches, and what it notes. -/
structure Seen where
  calls : List Answered := []
  trace : Trace := []

namespace Functions

/-- The functions once `history` has been dispatched. -/
def after (functions : Functions) (history : List Answered) : Functions :=
  fun calls => functions (history ++ calls)

def dispatcher (functions : Functions) : Dispatcher (StateM Seen) where
  dispatch name handle method args length := fun seen =>
    let sent : Dispatched := ⟨name, handle, method, args, length⟩
    let (code, out) := functions seen.calls sent
    ((code, out), { seen with calls := seen.calls ++ [⟨sent, code, out⟩] })
  note trace := modify fun seen => { seen with trace := seen.trace ++ trace }

end Functions

/-- What a code and the bytes of its payload are told as. -/
inductive Proxy.Maps (payload : Bytes) : Int → Except ProxyError Bytes → Prop
  | success : Maps payload 0 (.ok payload)
  | error : Maps payload 1 (.error (.error payload))
  | unexpected : Maps payload 2 (.error (.unexpected payload.toTextLossy))
  | cancelled : Maps payload 3 (.error .cancelled)
  | unknown {code : Int} (h : code < 0 ∨ 3 < code) : Maps payload code (.error (.unknownCode code))

/-- What an invocation comes to and what it dispatches. -/
inductive Proxy.Invoked (p : Proxy) (method : Nat) (args : Bytes) :
    Except ProxyError Bytes → List Answered → Prop
  | reserved (hmethod : method = releaseMethod) :
      Invoked p method args (.error (.reservedMethod method)) []
  | tooLarge (hmethod : method ≠ releaseMethod) (hargs : 0x80000000 ≤ args.length) :
      Invoked p method args (.error (.argumentsTooLarge args.length)) []
  | dispatched (hmethod : method ≠ releaseMethod) (hargs : args.length < 0x80000000) {code : Int}
      {out : Buffer} {answer : Except ProxyError Bytes} (hmaps : Maps out.bytes code answer) :
      Invoked p method args answer
        [⟨⟨p.dispatch, p.handle, method, some args, args.length⟩, code, out⟩]

/-- Whether the dispatches that are seen are those that the functions answered, and the buffers
taken back those that came of them. -/
structure Seen.Faithful (functions : Functions) (seen : Seen) : Prop where
  answered : ∀ call ∈ seen.calls, functions [] call.sent = (call.code, call.out)
  reclaimed : seen.trace.reclaimed = seen.calls.flatMap (·.out.owned)

namespace Seen

theorem faithful_nil (functions : Functions) (trace : Trace) (h : trace.reclaimed = []) :
    Faithful functions { trace } :=
  ⟨fun _ hcall => absurd hcall List.not_mem_nil, h⟩

end Seen

namespace Proxy

variable (functions : Functions) (p : Proxy) (method : Nat) (args : Bytes)

theorem maps_outcome (code : Int) (payload : Bytes) : Maps payload code (outcome code payload) := by
  by_cases hcode : code < 0 ∨ 3 < code
  · rw [outcome, ResultCode.ofRaw?_outside hcode]
    exact .unknown hcode
  · obtain rfl | rfl | rfl | rfl : code = 0 ∨ code = 1 ∨ code = 2 ∨ code = 3 := by omega
    · exact .success
    · exact .error
    · exact .unexpected
    · exact .cancelled

theorem reclaimed_owned (out : Buffer) :
    Trace.reclaimed (out.owned.map .reclaimed) = out.owned := by
  cases out <;> rfl

theorem reclaim_run (out : Buffer) (seen : Seen) :
    (reclaim functions.dispatcher out).run seen =
      ((), { seen with trace := seen.trace ++ out.owned.map .reclaimed }) := by
  cases out with
  | null =>
    have htrace : seen.trace ++ [] = seen.trace := List.append_nil _
    simp only [Buffer.owned, List.map_nil, htrace]
    rfl
  | allocated a => rfl

/-- A dispatch with its buffer taken back. -/
theorem faithful_dispatched (sent : Dispatched) (logs : Trace) (h : logs.reclaimed = []) :
    Seen.Faithful functions
      { calls := [⟨sent, (functions [] sent).1, (functions [] sent).2⟩]
        trace := (functions [] sent).2.owned.map .reclaimed ++ logs } := by
  refine ⟨fun call hcall => ?_, ?_⟩
  · obtain rfl := List.mem_singleton.1 hcall
    rfl
  · rw [Trace.reclaimed_append, reclaimed_owned, h, List.flatMap_singleton]
    exact List.append_nil _

theorem invoke_run : ∃ answer seen, (p.invoke functions.dispatcher method args).run {} =
    (answer, seen) ∧ p.Invoked method args answer seen.calls ∧ seen.Faithful functions := by
  by_cases hmethod : method = releaseMethod
  · refine ⟨_, {}, ?_, .reserved hmethod, Seen.faithful_nil functions [] rfl⟩
    rw [invoke_refused _ _ (if_pos hmethod)]
    rfl
  by_cases hargs : 0x80000000 ≤ args.length
  · refine ⟨_, {}, ?_, .tooLarge hmethod hargs, Seen.faithful_nil functions [] rfl⟩
    rw [invoke_refused _ _ (by rw [refusal?, if_neg hmethod, if_pos hargs])]
    rfl
  let sent : Dispatched := ⟨p.dispatch, p.handle, method, some args, args.length⟩
  have hreclaim := reclaim_run functions (functions [] sent).2
    { calls := [⟨sent, (functions [] sent).1, (functions [] sent).2⟩] }
  refine ⟨_, _, ?_, .dispatched hmethod (Nat.lt_of_not_le hargs) (maps_outcome _ _),
    faithful_dispatched functions sent [] rfl⟩
  rw [invoke_dispatched _ _ hmethod (Nat.lt_of_not_le hargs), List.append_nil]
  exact congrArg (fun reclaimed => (outcome _ _, reclaimed.2)) hreclaim

/-- The warning that a release was answered with another code than that of success. -/
def releaseWarning (code : Int) : Trace :=
  [.log .warn s!"Releasing callback handle {p.handle} returned code {code}"]

theorem drop_run : ∃ seen, (p.drop functions.dispatcher).run {} = ((), seen) ∧
    seen.calls.map Answered.sent = [p.release] ∧ seen.Faithful functions := by
  let code := (functions [] p.release).1
  have hdrop : (p.drop functions.dispatcher).run {} =
      (if code ≠ ResultCode.success.raw then functions.dispatcher.note (p.releaseWarning code)
        else pure () : StateM Seen Unit).run
          ((reclaim functions.dispatcher (functions [] p.release).2).run
            { calls := [⟨p.release, code, (functions [] p.release).2⟩] }).2 := rfl
  rw [hdrop, reclaim_run]
  by_cases hcode : code = ResultCode.success.raw
  · refine ⟨_, ?_, rfl, faithful_dispatched functions p.release [] rfl⟩
    rw [if_neg (not_not_intro hcode), List.append_nil]
    rfl
  · refine ⟨_, ?_, rfl, faithful_dispatched functions p.release (p.releaseWarning code) rfl⟩
    rw [if_pos hcode]
    rfl

theorem Invoked.sent_eq {p : Proxy} {method : Nat} {args : Bytes}
    {answer : Except ProxyError Bytes} {calls : List Answered}
    (h : p.Invoked method args answer calls) :
    calls.map Answered.sent = p.invocations method args := by
  unfold invocations
  cases h with
  | reserved hmethod => rw [if_pos (.inl hmethod), List.map_nil]
  | tooLarge _ hargs => rw [if_pos (.inr hargs), List.map_nil]
  | dispatched hmethod hargs =>
    rw [if_neg (not_or.2 ⟨hmethod, Nat.not_le_of_gt hargs⟩), List.map_singleton]

end Proxy

/-! ## What a core does with proxies -/

/-- What a core does with contracts and proxies. A proxy is told by the number of those that
were made before it. -/
inductive ProxyAction where
  | init (contract dispatch : String)
  | new (dispatch : String) (handle : Nat)
  | forContract (contract : String) (handle : Nat)
  | invoke (proxy method : Nat) (args : Bytes)
  | drop (proxy : Nat)
deriving DecidableEq

namespace ProxyAction

/-- The proxy that is used. -/
def proxy : ProxyAction → Option Nat
  | invoke n _ _ | drop n => some n
  | _ => none

/-- The dispatch function that is installed for `contract`. -/
def installs (contract : String) : ProxyAction → Option String
  | init other dispatch => if other = contract then some dispatch else none
  | _ => none

theorem installs_eq_some {contract dispatch : String} {action : ProxyAction} :
    action.installs contract = some dispatch ↔ action = init contract dispatch := by
  cases action with
  | init other installed =>
    rw [installs]
    split <;> simp_all
  | _ => simp [installs]

/-- What is dispatched to invoke a method through `p`, the proxy with number `n`. -/
def invocations (p : Proxy) (n : Nat) : ProxyAction → List Dispatched
  | invoke proxy method args => if proxy = n then p.invocations method args else []
  | _ => []

theorem invocations_of_ne {p : Proxy} {n : Nat} {action : ProxyAction}
    (h : action.proxy ≠ some n) : action.invocations p n = [] := by
  cases action with
  | invoke proxy method args => exact if_neg fun heq => h (congrArg some heq)
  | _ => rfl

end ProxyAction

/-- The dispatch function that was installed last for a contract. -/
def installed (contract : String) (actions : List ProxyAction) : Option String :=
  (actions.filterMap (·.installs contract)).getLast?

/-- An action as it was done: the proxy that was made, if one was, what an invocation came to, and
what was seen. -/
structure Deed where
  action : ProxyAction
  made : Option Proxy := none
  answer : Option (Except ProxyError Bytes) := none
  seen : Seen := {}

/-- The contracts and proxies of a core, with the place of each proxy that was dropped left empty,
and what was dispatched so far. -/
structure Roster where
  contracts : Contracts := {}
  proxies : List (Option Proxy) := []
  history : List Answered := []

namespace Roster

variable (functions : Functions)

/-- The proxy with number `n`, if it was made and not dropped. -/
def held (r : Roster) (n : Nat) : Option Proxy := r.proxies[n]?.join

/-- Does an action. One that uses a proxy that is not held is not possible, and does nothing. -/
def act (r : Roster) (action : ProxyAction) : Deed × Roster :=
  let make (made : Option Proxy) : Deed × Roster :=
    ({ action, made }, { r with proxies := r.proxies ++ made.toList.map some })
  match action with
  | .init contract dispatch =>
    let (contracts, trace) := r.contracts.init contract dispatch
    ({ action, seen := { trace } }, { r with contracts })
  | .new dispatch handle => make (some ⟨dispatch, handle⟩)
  | .forContract contract handle => make (Proxy.forContract? r.contracts contract handle)
  | .invoke n method args =>
    match r.held n with
    | none => ({ action }, r)
    | some p =>
      let (answer, seen) := (p.invoke (functions.after r.history).dispatcher method args).run {}
      ({ action, answer, seen }, { r with history := r.history ++ seen.calls })
  | .drop n =>
    match r.held n with
    | none => ({ action }, r)
    | some p =>
      let seen := ((p.drop (functions.after r.history).dispatcher).run {}).2
      ({ action, seen },
        { r with proxies := r.proxies.set n none, history := r.history ++ seen.calls })

/-- The actions as they are done one after the other. -/
def deeds : List ProxyAction → Roster → List Deed
  | [], _ => []
  | action :: later, r => (r.act functions action).1 :: deeds later (r.act functions action).2

def after (actions : List ProxyAction) (r : Roster) : Roster :=
  actions.foldl (fun r action => (r.act functions action).2) r

/-! ### One action -/

/-- The ways in which a proxy is made. -/
inductive Makes (r : Roster) : ProxyAction → Proxy → Prop
  | new {p : Proxy} : Makes r (.new p.dispatch p.handle) p
  | forContract {p : Proxy} {contract : String}
      (hget : r.contracts.get? contract = some p.dispatch) :
      Makes r (.forContract contract p.handle) p

/-- What an action comes to, and what it leaves. -/
inductive Step (r : Roster) : ProxyAction → Deed → Roster → Prop
  | init {contract dispatch : String} : Step r (.init contract dispatch)
      { action := .init contract dispatch
        seen := { trace := (r.contracts.init contract dispatch).2 } }
      { r with contracts := r.contracts.set contract dispatch }
  | make {action : ProxyAction} {p : Proxy} (hmakes : r.Makes action p) :
      Step r action { action, made := some p } { r with proxies := r.proxies ++ [some p] }
  | refuse {contract : String} {handle : Nat} (hget : r.contracts.get? contract = none) :
      Step r (.forContract contract handle) { action := .forContract contract handle } r
  | invoke {n method : Nat} {args : Bytes} {p : Proxy} {answer : Except ProxyError Bytes}
      {seen : Seen} (hheld : r.held n = some p)
      (hinvoked : p.Invoked method args answer seen.calls)
      (hfaithful : seen.Faithful (functions.after r.history)) :
      Step r (.invoke n method args) { action := .invoke n method args, answer, seen }
        { r with history := r.history ++ seen.calls }
  | drop {n : Nat} {p : Proxy} {seen : Seen} (hheld : r.held n = some p)
      (hsent : seen.calls.map Answered.sent = [p.release])
      (hfaithful : seen.Faithful (functions.after r.history)) :
      Step r (.drop n) { action := .drop n, seen }
        { r with proxies := r.proxies.set n none, history := r.history ++ seen.calls }
  | idle {action : ProxyAction} {n : Nat} (hproxy : action.proxy = some n)
      (hheld : r.held n = none) : Step r action { action } r

theorem step_act (r : Roster) (action : ProxyAction) :
    r.Step functions action (r.act functions action).1 (r.act functions action).2 := by
  cases action with
  | init contract dispatch => exact .init
  | new dispatch handle => exact .make (.new (p := ⟨dispatch, handle⟩))
  | forContract contract handle =>
    cases hget : r.contracts.get? contract with
    | none =>
      have hact : r.act functions (.forContract contract handle) =
          ({ action := .forContract contract handle }, { r with proxies := r.proxies ++ [] }) := by
        simp only [act, Proxy.forContract?, hget]
        rfl
      rw [hact, List.append_nil]
      exact .refuse hget
    | some dispatch =>
      have hact : r.act functions (.forContract contract handle) =
          ({ action := .forContract contract handle, made := some ⟨dispatch, handle⟩ },
            { r with proxies := r.proxies ++ [some ⟨dispatch, handle⟩] }) := by
        simp only [act, Proxy.forContract?, hget]
        rfl
      rw [hact]
      exact .make (.forContract (p := ⟨dispatch, handle⟩) hget)
  | invoke n method args =>
    cases hheld : r.held n with
    | none =>
      simp only [act, hheld]
      exact .idle (n := n) rfl hheld
    | some p =>
      obtain ⟨answer, seen, hrun, hinvoked, hfaithful⟩ :=
        p.invoke_run (functions.after r.history) method args
      simp only [act, hheld, hrun]
      exact .invoke hheld hinvoked hfaithful
  | drop n =>
    cases hheld : r.held n with
    | none =>
      simp only [act, hheld]
      exact .idle (n := n) rfl hheld
    | some p =>
      obtain ⟨seen, hrun, hsent, hfaithful⟩ := p.drop_run (functions.after r.history)
      simp only [act, hheld, hrun]
      exact .drop hheld hsent hfaithful

section Step

variable {functions : Functions} {r r' : Roster} {action : ProxyAction} {d : Deed} {n : Nat}
  {p : Proxy}

theorem lt_of_held (h : r.held n = some p) : n < r.proxies.length := by
  unfold held at h
  by_contra hle
  rw [List.getElem?_eq_none (Nat.le_of_not_lt hle)] at h
  cases h

theorem Step.action_eq (h : r.Step functions action d r') : d.action = action := by
  cases h <;> rfl

theorem Step.get?_contracts (h : r.Step functions action d r') (contract : String) :
    r'.contracts.get? contract = (action.installs contract).or (r.contracts.get? contract) := by
  cases h with
  | init =>
    rw [Table.get?_set, ProxyAction.installs]
    split <;> rfl
  | make hmakes => cases hmakes <;> rfl
  | idle hproxy =>
    cases action with
    | invoke | drop => rfl
    | _ => cases hproxy
  | _ => rfl

theorem Step.length_proxies (h : r.Step functions action d r') :
    r'.proxies.length = r.proxies.length + d.made.toList.length := by
  cases h with
  | make => exact List.length_append
  | drop => exact List.length_set
  | _ => rfl

theorem Step.history_eq (h : r.Step functions action d r') :
    r'.history = r.history ++ d.seen.calls := by
  cases h with
  | invoke | drop => rfl
  | _ => exact (List.append_nil _).symm

theorem Step.faithful (h : r.Step functions action d r') :
    d.seen.Faithful (functions.after r.history) := by
  cases h with
  | init =>
    refine Seen.faithful_nil _ _ ?_
    dsimp only [Contracts.init]
    split <;> rfl
  | invoke _ _ hfaithful | drop _ _ hfaithful => exact hfaithful
  | _ => exact Seen.faithful_nil _ _ rfl

/-- An action leaves the proxies alone that it does not use. -/
theorem Step.held_of_ne (h : r.Step functions action d r') (hlt : n < r.proxies.length)
    (hne : action.proxy ≠ some n) : r'.held n = r.held n := by
  cases h with
  | make => rw [held, held, List.getElem?_append_left hlt]
  | drop =>
    have hproxy := fun heq => hne (congrArg some heq)
    rw [held, held, List.getElem?_set_ne hproxy]
  | _ => rfl

/-- Nothing is dispatched to use a proxy that is not held. -/
theorem Step.of_unheld (h : r.Step functions action d r') (hproxy : action.proxy = some n)
    (hheld : r.held n = none) : d.seen.calls = [] ∧ r' = r := by
  cases h with
  | make hmakes => cases hmakes <;> cases hproxy
  | invoke hheld' | drop hheld' =>
    cases hproxy
    cases hheld.symm.trans hheld'
  | idle => exact ⟨rfl, rfl⟩
  | _ => cases hproxy

/-- A proxy that is held is used to invoke a method, and is held still, or is dropped. -/
theorem Step.of_held (h : r.Step functions action d r') (hproxy : action.proxy = some n)
    (hheld : r.held n = some p) :
    (∃ method args answer, action = .invoke n method args ∧ d.answer = some answer ∧
      p.Invoked method args answer d.seen.calls ∧ r'.held n = some p) ∨
    action = .drop n ∧ d.seen.calls.map Answered.sent = [p.release] ∧ r'.held n = none := by
  cases h with
  | make hmakes => cases hmakes <;> cases hproxy
  | invoke hheld' hinvoked =>
    cases hproxy
    cases hheld.symm.trans hheld'
    exact .inl ⟨_, _, _, rfl, rfl, hinvoked, hheld⟩
  | drop hheld' hsent =>
    cases hproxy
    cases hheld.symm.trans hheld'
    refine .inr ⟨rfl, hsent, ?_⟩
    rw [held, List.getElem?_set_self (lt_of_held hheld)]
    rfl
  | idle hproxy' hheld' =>
    cases hproxy.symm.trans hproxy'
    cases hheld.symm.trans hheld'
  | _ => cases hproxy

theorem Step.makes (h : r.Step functions action d r') (hmade : d.made = some p) :
    r.Makes action p ∧ r'.proxies = r.proxies ++ [some p] := by
  cases h with
  | make hmakes =>
    cases hmade
    exact ⟨hmakes, rfl⟩
  | _ => cases hmade

theorem Makes.proxy_eq (h : r.Makes action p) : action.proxy = none := by
  cases h <;> rfl

theorem Step.held_of_made (h : r.Step functions action d r') (hmade : d.made = some p) :
    r'.held r.proxies.length = some p := by
  rw [held, (h.makes hmade).2, List.getElem?_concat_length]
  rfl

theorem Step.made_new {dispatch : String} {handle : Nat}
    (h : r.Step functions (.new dispatch handle) d r') : d.made = some ⟨dispatch, handle⟩ := by
  cases h with
  | make hmakes =>
    cases hmakes
    rfl
  | idle hproxy => cases hproxy

theorem Step.made_iff {contract : String} {handle : Nat}
    (h : r.Step functions (.forContract contract handle) d r') :
    (∃ p, d.made = some p) ↔ ∃ dispatch, r.contracts.get? contract = some dispatch := by
  cases h with
  | make hmakes =>
    cases hmakes with
    | forContract hget => exact iff_of_true ⟨_, rfl⟩ ⟨_, hget⟩
  | refuse hget => simp [hget]
  | idle hproxy => cases hproxy

/-- Something is dispatched only to use a proxy that is held. -/
theorem Step.of_dispatched (h : r.Step functions action d r') (hcalls : d.seen.calls ≠ []) :
    ∃ n p, action.proxy = some n ∧ r.held n = some p := by
  cases h with
  | invoke hheld | drop hheld => exact ⟨_, _, rfl, hheld⟩
  | _ => exact absurd rfl hcalls

end Step

/-! ### All actions -/

section Run

variable {functions : Functions} {r : Roster} {actions : List ProxyAction} {n : Nat} {p : Proxy}

/-- A run is a step and what is done from where it leads. -/
theorem exists_step (functions : Functions) (action : ProxyAction) (later : List ProxyAction)
    (r : Roster) : ∃ d r', r.Step functions action d r' ∧
      deeds functions (action :: later) r = d :: deeds functions later r' ∧
      after functions (action :: later) r = after functions later r' :=
  ⟨_, _, step_act functions r action, rfl, rfl⟩

theorem map_action_deeds (functions : Functions) (actions : List ProxyAction) (r : Roster) :
    (deeds functions actions r).map Deed.action = actions := by
  induction actions generalizing r with
  | nil => rfl
  | cons action later ih =>
    obtain ⟨d, r', hstep, hdeeds, -⟩ := exists_step functions action later r
    rw [hdeeds, List.map_cons, hstep.action_eq, ih]

theorem deeds_append (functions : Functions) (first second : List ProxyAction) (r : Roster) :
    deeds functions (first ++ second) r =
      deeds functions first r ++ deeds functions second (after functions first r) := by
  induction first generalizing r with
  | nil => rfl
  | cons action first ih =>
    rw [List.cons_append, deeds, deeds, ih, List.cons_append]
    rfl

/-- Where a run is split, the part before comes to a roster from which the rest is done. -/
theorem deeds_split {before later : List Deed} {d : Deed}
    (h : deeds functions actions r = before ++ d :: later) : ∃ r' r'' : Roster,
      after functions (before.map Deed.action) r = r' ∧
      deeds functions (before.map Deed.action) r = before ∧ r'.Step functions d.action d r'' ∧
      deeds functions (later.map Deed.action) r'' = later := by
  have hactions : actions = before.map Deed.action ++ d.action :: later.map Deed.action := by
    rw [← map_action_deeds functions actions r, h, List.map_append, List.map_cons]
  rw [hactions, deeds_append] at h
  have hlength : (deeds functions (before.map Deed.action) r).length = before.length := by
    rw [← List.length_map (f := Deed.action), map_action_deeds, List.length_map]
  obtain ⟨hbefore, hrest⟩ := List.append_inj h hlength
  obtain ⟨hd, hlater⟩ := List.cons.inj hrest
  have hstep := step_act functions (after functions (before.map Deed.action) r) d.action
  rw [hd] at hstep
  exact ⟨_, _, rfl, hbefore, hstep, hlater⟩

theorem length_proxies_after (functions : Functions) (actions : List ProxyAction) (r : Roster) :
    (after functions actions r).proxies.length =
      r.proxies.length + ((deeds functions actions r).filterMap Deed.made).length := by
  induction actions generalizing r with
  | nil => rfl
  | cons action later ih =>
    obtain ⟨d, r', hstep, hdeeds, hafter⟩ := exists_step functions action later r
    have hmade : ((d :: deeds functions later r').filterMap Deed.made).length =
        d.made.toList.length + ((deeds functions later r').filterMap Deed.made).length := by
      rw [List.filterMap_cons]
      cases d.made with
      | none => exact (Nat.zero_add _).symm
      | some p => exact Nat.add_comm _ _
    rw [hafter, ih, hdeeds, hmade, hstep.length_proxies, Nat.add_assoc]

theorem history_after (functions : Functions) (actions : List ProxyAction) (r : Roster) :
    (after functions actions r).history =
      r.history ++ (deeds functions actions r).flatMap (·.seen.calls) := by
  induction actions generalizing r with
  | nil => exact (List.append_nil _).symm
  | cons action later ih =>
    obtain ⟨d, r', hstep, hdeeds, hafter⟩ := exists_step functions action later r
    rw [hafter, ih, hdeeds, hstep.history_eq, List.flatMap_cons, List.append_assoc]

theorem installed_cons (contract : String) (action : ProxyAction) (later : List ProxyAction) :
    installed contract (action :: later) =
      (installed contract later).or (action.installs contract) := by
  unfold installed
  rw [List.filterMap_cons]
  cases action.installs contract with
  | none => exact (Option.or_none).symm
  | some dispatch =>
    rw [List.getLast?_cons]
    cases (later.filterMap (·.installs contract)).getLast? <;> rfl

/-- A function is installed for a contract iff the contract was initialised. -/
theorem exists_installed_iff (contract : String) (actions : List ProxyAction) :
    (∃ dispatch, installed contract actions = some dispatch) ↔
      ∃ dispatch, ProxyAction.init contract dispatch ∈ actions := by
  constructor
  · rintro ⟨dispatch, h⟩
    obtain ⟨action, hmem, hinstalls⟩ := List.mem_filterMap.1 (List.mem_of_getLast? h)
    exact ⟨dispatch, ProxyAction.installs_eq_some.1 hinstalls ▸ hmem⟩
  · rintro ⟨dispatch, h⟩
    have hmem : dispatch ∈ actions.filterMap (·.installs contract) :=
      List.mem_filterMap.2 ⟨_, h, ProxyAction.installs_eq_some.2 rfl⟩
    exact Option.isSome_iff_exists.1 (List.getLast?_isSome.2 (List.ne_nil_of_mem hmem))

theorem contracts_after (functions : Functions) (actions : List ProxyAction) (r : Roster)
    (contract : String) : (after functions actions r).contracts.get? contract =
      (installed contract actions).or (r.contracts.get? contract) := by
  induction actions generalizing r with
  | nil => rfl
  | cons action later ih =>
    obtain ⟨d, r', hstep, -, hafter⟩ := exists_step functions action later r
    rw [hafter, ih, hstep.get?_contracts, installed_cons, Option.or_assoc]

/-! ### What one proxy dispatches -/

/-- What is dispatched to use the proxy with number `n`. -/
def dispatches (n : Nat) (deeds : List Deed) : List Dispatched :=
  (deeds.filter (·.action.proxy = some n)).flatMap (·.seen.calls.map Answered.sent)

theorem dispatches_append (n : Nat) (first second : List Deed) :
    dispatches n (first ++ second) = dispatches n first ++ dispatches n second := by
  rw [dispatches, List.filter_append, List.flatMap_append]
  rfl

theorem dispatches_cons_of_ne {d : Deed} {later : List Deed} (h : d.action.proxy ≠ some n) :
    dispatches n (d :: later) = dispatches n later := by
  rw [dispatches, List.filter_cons_of_neg (by simpa using h)]
  rfl

theorem dispatches_cons_of_eq {d : Deed} {later : List Deed} (h : d.action.proxy = some n) :
    dispatches n (d :: later) = d.seen.calls.map Answered.sent ++ dispatches n later := by
  rw [dispatches, List.filter_cons_of_pos (by simpa using h), List.flatMap_cons]
  rfl

/-- While a proxy is not held, nothing is dispatched to use it. -/
theorem dispatches_cons_of_unheld {r' : Roster} {action : ProxyAction} {d : Deed}
    {later : List Deed} (hstep : r.Step functions action d r') (h : r.held n = none) :
    dispatches n (d :: later) = dispatches n later := by
  by_cases hproxy : action.proxy = some n
  · obtain ⟨hcalls, -⟩ := hstep.of_unheld hproxy h
    rw [dispatches_cons_of_eq (hstep.action_eq ▸ hproxy), hcalls]
    rfl
  · exact dispatches_cons_of_ne (hstep.action_eq ▸ hproxy)

theorem dispatches_of_dropped (hlt : n < r.proxies.length) (h : r.held n = none) :
    dispatches n (deeds functions actions r) = [] := by
  induction actions generalizing r with
  | nil => rfl
  | cons action later ih =>
    obtain ⟨d, r', hstep, hdeeds, -⟩ := exists_step functions action later r
    rw [hdeeds, dispatches_cons_of_unheld hstep h]
    by_cases hproxy : action.proxy = some n
    · obtain ⟨-, rfl⟩ := hstep.of_unheld hproxy h
      exact ih hlt h
    · refine ih ?_ ((hstep.held_of_ne hlt hproxy).trans h)
      rw [hstep.length_proxies]
      omega

theorem dispatches_of_unmade (h : (after functions actions r).proxies.length ≤ n) :
    dispatches n (deeds functions actions r) = [] := by
  induction actions generalizing r with
  | nil => rfl
  | cons action later ih =>
    obtain ⟨d, r', hstep, hdeeds, hafter⟩ := exists_step functions action later r
    have hle : r.proxies.length ≤ n := by
      rw [length_proxies_after] at h
      omega
    have hheld : r.held n = none := by
      rw [held, List.getElem?_eq_none hle]
      rfl
    rw [hdeeds, dispatches_cons_of_unheld hstep hheld]
    exact ih (hafter ▸ h)

/-- What is dispatched to use `p`, the proxy with number `n`, from when it is made: what invokes
its methods until it is dropped, then its release, and nothing after it. -/
def uses (p : Proxy) (n : Nat) (actions : List ProxyAction) : List Dispatched :=
  (actions.takeWhile (· ≠ .drop n)).flatMap (ProxyAction.invocations p n) ++
    if ProxyAction.drop n ∈ actions then [p.release] else []

theorem uses_cons_drop (p : Proxy) (n : Nat) (later : List ProxyAction) :
    uses p n (.drop n :: later) = [p.release] := by
  simp [uses]

theorem uses_cons_of_ne {action : ProxyAction} (h : action ≠ .drop n)
    (later : List ProxyAction) : uses p n (action :: later) =
      action.invocations p n ++ uses p n later := by
  simp [uses, h, Ne.symm h]

theorem dispatches_of_held (h : r.held n = some p) :
    dispatches n (deeds functions actions r) = uses p n actions := by
  induction actions generalizing r with
  | nil => rfl
  | cons action later ih =>
    obtain ⟨d, r', hstep, hdeeds, -⟩ := exists_step functions action later r
    rw [hdeeds]
    by_cases hproxy : action.proxy = some n
    · rw [dispatches_cons_of_eq (hstep.action_eq ▸ hproxy)]
      obtain ⟨method, args, answer, rfl, -, hinvoked, hheld⟩ | ⟨rfl, hsent, hheld⟩ :=
        hstep.of_held hproxy h
      · rw [hinvoked.sent_eq, ih hheld, uses_cons_of_ne (by simp), ProxyAction.invocations,
          if_pos rfl]
      · have hlt : n < r'.proxies.length := by
          rw [hstep.length_proxies]
          exact Nat.lt_add_right _ (lt_of_held h)
        rw [uses_cons_drop, hsent, dispatches_of_dropped hlt hheld, List.append_nil]
    · have hne : action ≠ .drop n := by
        rintro rfl
        exact hproxy rfl
      rw [dispatches_cons_of_ne (hstep.action_eq ▸ hproxy),
        ih ((hstep.held_of_ne (lt_of_held h) hproxy).trans h), uses_cons_of_ne hne,
        ProxyAction.invocations_of_ne hproxy, List.nil_append]

end Run

/-! ### The law of proxies -/

/-- What a core does with proxies, by the dispatch functions of the host. -/
structure ProxyLaw (functions : Functions) (deeds : List Deed) : Prop where
  /-- A proxy has the function and the handle that it was given, or the function that was
  installed last for its contract. -/
  made_with : ∀ {before later : List Deed} {d : Deed} {p : Proxy}, deeds = before ++ d :: later →
    d.made = some p → d.action = .new p.dispatch p.handle ∨
      ∃ contract, d.action = .forContract contract p.handle ∧
        installed contract (before.map Deed.action) = some p.dispatch
  new_makes : ∀ {d : Deed} {dispatch : String} {handle : Nat}, d ∈ deeds →
    d.action = .new dispatch handle → d.made = some ⟨dispatch, handle⟩
  /-- A contract yields a proxy iff it has been initialised. -/
  contract_makes_iff : ∀ {before later : List Deed} {d : Deed} {contract : String} {handle : Nat},
    deeds = before ++ d :: later → d.action = .forContract contract handle →
      ((∃ p, d.made = some p) ↔
        ∃ dispatch, ProxyAction.init contract dispatch ∈ before.map Deed.action)
  /-- All that is ever dispatched to use a proxy are its uses from when it was made. -/
  dispatches_eq : ∀ {before later : List Deed} {d : Deed} {p : Proxy},
    deeds = before ++ d :: later → d.made = some p →
      let n := (before.filterMap Deed.made).length
      dispatches n deeds = uses p n (later.map Deed.action)
  /-- Nothing is dispatched but to use a proxy that was made. -/
  made_of_dispatched : ∀ {d : Deed}, d ∈ deeds → d.seen.calls ≠ [] →
    ∃ n < (deeds.filterMap Deed.made).length, d.action.proxy = some n
  /-- An invocation comes to what the code and the payload say. -/
  invoked : ∀ {before between later : List Deed} {d e : Deed} {p : Proxy} {method : Nat}
    {args : Bytes}, deeds = before ++ d :: (between ++ e :: later) → d.made = some p →
      let n := (before.filterMap Deed.made).length
      ProxyAction.drop n ∉ between.map Deed.action → e.action = .invoke n method args →
        ∃ answer, e.answer = some answer ∧ p.Invoked method args answer e.seen.calls
  /-- Code and payload are what the functions answered, after all that was dispatched before. -/
  answered : ∀ {before later : List Deed} {d : Deed}, deeds = before ++ d :: later →
    ∀ call ∈ d.seen.calls,
      functions (before.flatMap (·.seen.calls)) call.sent = (call.code, call.out)
  /-- The buffers taken back are those that were answered, each once. -/
  reclaimed_eq : ∀ {d : Deed}, d ∈ deeds →
    d.seen.trace.reclaimed = d.seen.calls.flatMap (·.out.owned)

section Law

variable {functions : Functions} {actions : List ProxyAction} {before between later : List Deed}
  {d e : Deed} {r : Roster} {n : Nat} {p : Proxy}

/-- Whether `r` is what the deeds before have led to. -/
structure Follows (before : List Deed) (r : Roster) : Prop where
  length_proxies : r.proxies.length = (before.filterMap Deed.made).length
  history_eq : r.history = before.flatMap (·.seen.calls)
  get?_contracts : ∀ contract,
    r.contracts.get? contract = installed contract (before.map Deed.action)
  dispatches_eq : ∀ n, r.proxies.length ≤ n → dispatches n before = []

theorem follows_of_deeds (h : deeds functions actions {} = before ++ d :: later) :
    ∃ r r' : Roster, r.Follows before ∧ r.Step functions d.action d r' ∧
      deeds functions (later.map Deed.action) r' = later := by
  obtain ⟨r, r', rfl, hbefore, hstep, hlater⟩ := deeds_split h
  refine ⟨_, r', ⟨?_, ?_, fun contract => ?_, fun n hle => ?_⟩, hstep, hlater⟩
  · rw [length_proxies_after, hbefore]
    exact Nat.zero_add _
  · rw [history_after, hbefore]
    rfl
  · rw [contracts_after]
    exact Option.or_none
  · rw [← hbefore]
    exact dispatches_of_unmade hle

theorem held_after (h : r.held n = some p) (hdrop : ProxyAction.drop n ∉ actions) :
    (after functions actions r).held n = some p := by
  induction actions generalizing r with
  | nil => exact h
  | cons action later ih =>
    obtain ⟨d, r', hstep, -, hafter⟩ := exists_step functions action later r
    obtain ⟨hne, hlater⟩ := not_or.1 (hdrop ∘ List.mem_cons.2)
    rw [hafter]
    refine ih ?_ hlater
    by_cases hproxy : action.proxy = some n
    · obtain ⟨_, _, _, -, -, -, hheld⟩ | ⟨rfl, -⟩ := hstep.of_held hproxy h
      · exact hheld
      · exact absurd rfl hne
    · exact (hstep.held_of_ne (lt_of_held h) hproxy).trans h

theorem dispatches_of_made (h : deeds functions actions {} = before ++ d :: later)
    (hmade : d.made = some p) :
    dispatches (before.filterMap Deed.made).length (deeds functions actions {}) =
      uses p (before.filterMap Deed.made).length (later.map Deed.action) := by
  obtain ⟨r, r', hfollows, hstep, hlater⟩ := follows_of_deeds h
  have hproxy : d.action.proxy ≠ some (before.filterMap Deed.made).length := by
    rw [(hstep.makes hmade).1.proxy_eq]
    exact (Option.some_ne_none _).symm
  have hheld := hstep.held_of_made hmade
  rw [hfollows.length_proxies] at hheld
  rw [h, dispatches_append, hfollows.dispatches_eq _ hfollows.length_proxies.le,
    dispatches_cons_of_ne hproxy, List.nil_append, ← dispatches_of_held hheld, hlater]

theorem invoked_of_held {method : Nat} {args : Bytes}
    (h : deeds functions actions {} = before ++ d :: (between ++ e :: later))
    (hmade : d.made = some p)
    (hdrop : ProxyAction.drop (before.filterMap Deed.made).length ∉ between.map Deed.action)
    (haction : e.action = .invoke (before.filterMap Deed.made).length method args) :
    ∃ answer, e.answer = some answer ∧ p.Invoked method args answer e.seen.calls := by
  obtain ⟨r, r', hfollows, hstep, hlater⟩ := follows_of_deeds h
  have hheld := hstep.held_of_made hmade
  rw [hfollows.length_proxies] at hheld
  obtain ⟨r'', _, hafter, -, hstep', -⟩ := deeds_split hlater
  have hheld' : r''.held (before.filterMap Deed.made).length = some p :=
    hafter ▸ held_after hheld hdrop
  rw [haction] at hstep'
  obtain ⟨_, _, answer, heq, hanswer, hinvoked, -⟩ | ⟨heq, -⟩ := hstep'.of_held rfl hheld'
  · cases heq
    exact ⟨answer, hanswer, hinvoked⟩
  · cases heq

theorem made_with_of_made (h : deeds functions actions {} = before ++ d :: later)
    (hmade : d.made = some p) : d.action = .new p.dispatch p.handle ∨
      ∃ contract, d.action = .forContract contract p.handle ∧
        installed contract (before.map Deed.action) = some p.dispatch := by
  obtain ⟨r, r', hfollows, hstep, -⟩ := follows_of_deeds h
  have hmakes := (hstep.makes hmade).1
  generalize d.action = action at hmakes
  cases hmakes with
  | new => exact .inl rfl
  | forContract hget => exact .inr ⟨_, rfl, (hfollows.get?_contracts _).symm.trans hget⟩

theorem made_of_calls (hmem : d ∈ deeds functions actions {}) (hcalls : d.seen.calls ≠ []) :
    ∃ n < ((deeds functions actions {}).filterMap Deed.made).length, d.action.proxy = some n := by
  obtain ⟨before, later, h⟩ := List.append_of_mem hmem
  obtain ⟨r, r', hfollows, hstep, -⟩ := follows_of_deeds h
  obtain ⟨n, p, hproxy, hheld⟩ := hstep.of_dispatched hcalls
  refine ⟨n, ?_, hproxy⟩
  rw [h, List.filterMap_append, List.length_append, ← hfollows.length_proxies]
  exact Nat.lt_add_right _ (lt_of_held hheld)

end Law

/-- Whatever a core does with proxies and contracts, and whatever the dispatch functions answer:
each proxy talks to one dispatch function, which is sent its invocations and, once and last, its
release. An invocation of the reserved method is refused, and so is one with more arguments than the
length of a dispatch can tell; these send nothing. -/
theorem proxy_law (functions : Functions) (actions : List ProxyAction) :
    (deeds functions actions {}).map Deed.action = actions ∧
      ProxyLaw functions (deeds functions actions {}) := by
  refine ⟨map_action_deeds functions actions {}, ?_⟩
  exact {
    made_with := made_with_of_made
    new_makes := fun hmem haction => by
      obtain ⟨before, later, h⟩ := List.append_of_mem hmem
      obtain ⟨r, r', -, hstep, -⟩ := follows_of_deeds h
      rw [haction] at hstep
      exact hstep.made_new
    contract_makes_iff := fun h haction => by
      obtain ⟨r, r', hfollows, hstep, -⟩ := follows_of_deeds h
      rw [haction] at hstep
      rw [hstep.made_iff, hfollows.get?_contracts, exists_installed_iff]
    dispatches_eq := dispatches_of_made
    made_of_dispatched := made_of_calls
    invoked := invoked_of_held
    answered := fun h call hcall => by
      obtain ⟨r, r', hfollows, hstep, -⟩ := follows_of_deeds h
      have hanswered := hstep.faithful.answered call hcall
      rw [Functions.after, hfollows.history_eq, List.append_nil] at hanswered
      exact hanswered
    reclaimed_eq := fun hmem => by
      obtain ⟨before, later, h⟩ := List.append_of_mem hmem
      obtain ⟨r, r', -, hstep, -⟩ := follows_of_deeds h
      exact hstep.faithful.reclaimed }

/-- A proxy that is made, and invoked in a way that is refused. -/
theorem deeds_of_refused (functions : Functions) (p : Proxy) {method : Nat} {args : Bytes}
    {refusal : ProxyError} (h : Proxy.refusal? method args.length = some refusal) :
    deeds functions [.new p.dispatch p.handle, .invoke 0 method args] {} =
      [{ action := .new p.dispatch p.handle, made := some p },
        { action := .invoke 0 method args, answer := some (.error refusal) }] := by
  have hinvoke := Proxy.invoke_refused (functions.after []).dispatcher p h
  have hdeeds : deeds functions [.new p.dispatch p.handle, .invoke 0 method args] {} =
      [{ action := .new p.dispatch p.handle, made := some p },
        { action := .invoke 0 method args
          answer := some ((p.invoke (functions.after []).dispatcher method args).run {}).1
          seen := ((p.invoke (functions.after []).dispatcher method args).run {}).2 }] := rfl
  rw [hdeeds, hinvoke]
  rfl

/-- Nothing is dispatched for arguments of 2 GiB, although their method is not reserved. -/
theorem oversized_not_dispatched :
    let args : Bytes := List.replicate 0x80000000 0
    let silent : Functions := fun _ _ => (0, .null)
    let run := deeds silent [.new "first" 7, .invoke 0 1 args] {}
    1 ≠ releaseMethod ∧ dispatches 0 run ≠ [⟨"first", 7, 1, some args, args.length⟩] ∧
      dispatches 0 run = [] ∧
      run.map Deed.answer = [none, some (.error (.argumentsTooLarge 0x80000000))] := by
  intro args silent run
  have hrefused : Proxy.refusal? 1 args.length = some (.argumentsTooLarge 0x80000000) := by
    rw [List.length_replicate]
    rfl
  have hrun : run = _ := deeds_of_refused silent ⟨"first", 7⟩ hrefused
  have hnone : dispatches 0 run = [] := by
    rw [hrun]
    rfl
  refine ⟨by decide, ?_, hnone, ?_⟩
  · rw [hnone]
    exact (List.cons_ne_nil _ _).symm
  · rw [hrun]
    rfl

/-- Two proxies of one contract, which is initialised again between them. -/
example :
    let silent : Functions := fun _ _ => (0, .null)
    let run := deeds silent [.init "greeter" "first", .forContract "greeter" 7,
      .init "greeter" "second", .forContract "greeter" 8, .invoke 0 1 [9], .invoke 1 0 [],
      .drop 0, .invoke 0 1 [9], .drop 1] {}
    dispatches 0 run = [⟨"first", 7, 1, some [9], 1⟩, ⟨"first", 7, 0, none, 0⟩] ∧
      dispatches 1 run = [⟨"second", 8, 0, none, 0⟩] := by
  decide

end Roster
end Core
end CoreBridge
