import CoreBridge.Host.Runtime
import CoreBridge.Proofs.Async.Record

/-!
# The gate told by its checks

The gate is a list of checks, each of which finds a core in a state and leaves
it in another one. They are made in turn until one fails (`Gate.conduct`). So
the verdict is that of the first check that fails, and what was shown of the
boundary and done to the core is what the checks made up to it show and do:
nothing beyond it is looked up, called or installed.
-/
namespace CoreBridge

/-! ## Probes -/

/-- Whether an observation is one by which a host probes a core before it drives it. -/
def Observation.isProbe : Observation → Bool
  | .lookedUp _ | .versionRead | .checksumRead _ | .continuationInstalled => true
  | _ => false

/-- The probes among the observations, in order. -/
def Trace.probes (trace : Trace) : Trace := trace.filter Observation.isProbe

@[simp] theorem Trace.probes_nil : probes [] = [] := rfl

@[simp] theorem Trace.probes_append (first second : Trace) :
    probes (first ++ second) = first.probes ++ second.probes := List.filter_append ..

theorem Trace.probes_cons (o : Observation) (trace : Trace) :
    probes (o :: trace) = probes [o] ++ trace.probes := probes_append [o] trace

namespace Host

theorem WakeRegistry.probes_deliver (r : WakeRegistry) (id : Nat) (result : Int) :
    (r.deliver id result).2.probes = [] := by
  unfold WakeRegistry.deliver
  split
  · split <;> rfl
  · split <;> rfl

theorem probes_releaseWith (replies : List CallStatus) (buffer : Buffer) :
    (releaseWith replies buffer).1.probes = [] := by
  induction replies generalizing buffer with
  | nil => cases buffer <;> rfl
  | cons status replies ih =>
    cases buffer with
    | null => rfl
    | allocated a =>
      unfold releaseWith
      rw [Trace.probes_cons, Trace.probes_append, ih]
      cases classifyInfallible status <;> rfl

namespace HostM

variable {σ α : Type}

theorem bind_run {β : Type} (x : HostM σ α) (f : α → HostM σ β) (s : Session σ) :
    (x >>= f).run s = (f (x.run s).1).run (x.run s).2 := rfl

theorem observe_run (trace : Trace) (s : Session σ) :
    (observe trace).run s = ((), { s with trace := s.trace ++ trace }) := rfl

theorem absorb_probes (trace : Trace) (s : Session σ) :
    ((absorb trace).run s).2.trace.probes = s.trace.probes ++ trace.probes := by
  induction trace generalizing s with
  | nil => exact (List.append_nil _).symm
  | cons o trace ih =>
    rw [Trace.probes_cons]
    cases o with
    | fired id result =>
      refine (ih _).trans ?_
      change (s.trace ++ [Observation.fired id result] ++
        (s.wakes.deliver id result).2).probes ++ _ = _
      simp only [Trace.probes_append, WakeRegistry.probes_deliver, List.append_nil,
        List.append_assoc]
    | _ =>
      refine (ih _).trans ?_
      change (s.trace ++ [_]).probes ++ _ = _
      rw [Trace.probes_append, List.append_assoc]

/-- A call shows no probe but those that the core shows. -/
theorem call_probes (transition : σ → Reply α × σ) (s : Session σ) :
    ((call transition).run s).2.trace.probes =
      s.trace.probes ++ (transition s.core).1.trace.probes := by
  have habsorb := absorb_probes (transition s.core).1.trace { s with core := (transition s.core).2 }
  have hrelease := probes_releaseWith ((enter transition).run s).2.freeReplies
    (transition s.core).1.status.payload
  have hrun : ((call transition).run s).2.trace = ((enter transition).run s).2.trace ++ [] ++
      (releaseWith ((enter transition).run s).2.freeReplies
        (transition s.core).1.status.payload).1 := rfl
  rw [hrun, Trace.probes_append, hrelease, List.append_nil, List.append_nil]
  exact habsorb

/-- What a call answers, does to the core and shows by way of probes, after one that a
host makes itself. -/
theorem probe_call_run (o : Observation) (transition : σ → Reply α × σ) (s : Session σ) :
    ∃ s', (call transition).run { s with trace := s.trace ++ [o] } =
        ((classifyInfallible (transition s.core).1.status).map fun () =>
          (transition s.core).1.value, s') ∧
      s'.core = (transition s.core).2 ∧
      s'.trace.probes = s.trace.probes ++
        (Trace.probes [o] ++ (transition s.core).1.trace.probes) := by
  obtain ⟨s', hrun, hcore, -⟩ := call_run transition (fun _ => []) { s with
    trace := s.trace ++ [o] }
  have hprobes := call_probes transition { s with trace := s.trace ++ [o] }
  rw [hrun, Trace.probes_append, List.append_assoc] at hprobes
  exact ⟨s', hrun, hcore, hprobes⟩

end HostM

/-! ## The checks -/

/-- Whether a name stands for an address other than null. -/
def SymbolSource.Resolves (source : SymbolSource) (name : String) : Prop :=
  ∃ address, source name = some address ∧ address ≠ 0

theorem SymbolSource.resolves_iff {source : SymbolSource} {name : String} :
    source.Resolves name ↔ ∃ address, source.find? name = some address := by
  simp [Resolves, find?]

/-- A core and what is expected of it. A checksum function is handed no status, and
symbols are expected by ascending name. -/
structure Gate (σ : Type) where
  identity : Nat
  symbols : SymbolSource
  symbolPrefix : String
  core : Core.EntryPoints σ
  checksum : String → σ → Reply Nat × σ
  spec : ContractSpec
  checksum_status : ∀ symbol s, (checksum symbol s).1.status = {}
  ascending : spec.checksums.Pairwise fun a b => a.1 < b.1

inductive Check where
  /-- An entry point of every core is there. -/
  | entryPoint (name : String)
  /-- The core reports its contract version, and it is the one expected. -/
  | version
  /-- A checksum function is there, and returns what is expected. -/
  | checksum (symbol : String) (expected : Nat)
  /-- The core takes the continuation. -/
  | continuation
deriving DecidableEq

/-- What checks come to: the fault of the first that fails, the probes that were
made, and the core after them. -/
structure Finding (σ : Type) where
  fault? : Option Fault
  probes : Trace
  core : σ

/-- The answer that reports a finding; `a` stands for none of the checks having failed. -/
def Finding.answer {σ α : Type} (f : Finding σ) (a : α) : Except Fault α :=
  match f.fault? with
  | some fault => .error fault
  | none => .ok a

section Answer

variable {σ α : Type} {f : Finding σ} {a b : α} {fault : Fault}

theorem Finding.answer_eq_error : f.answer a = .error fault ↔ f.fault? = some fault := by
  rw [answer]
  cases f.fault? <;> simp

theorem Finding.fault?_of_answer (h : f.answer a = .ok b) : f.fault? = none := by
  rw [answer] at h
  cases hfault : f.fault? with
  | none => rfl
  | some fault =>
    rw [hfault] at h
    cases h

end Answer

theorem classifyInfallible_zeroed : classifyInfallible {} = .ok () := rfl

/-- The fault that the status of a call stands for, if it is not success. -/
def statusFault? (status : CallStatus) : Option Fault :=
  match classifyInfallible status with
  | .error fault => some fault
  | .ok () => none

namespace Gate

variable {σ α : Type} (g : Gate σ)

/-- The core as a host holds it that has passed the gate. -/
def runtime : Runtime where
  identity := g.identity
  symbolPrefix := g.symbolPrefix
  symbols := g.symbols

/-- All checks, in the order in which they are made. -/
def checks : List Check :=
  runtimeSymbols.map .entryPoint ++
    .version :: (g.spec.checksums.map (fun e => .checksum e.1 e.2) ++ [.continuation])

/-- What a check comes to on a core in state `s`. -/
def find : Check → σ → Finding σ
  | .entryPoint name, s =>
    let symbol := g.symbolPrefix ++ name
    { fault? := match g.symbols.find? symbol with
        | some _ => none
        | none => some (.missingSymbol symbol)
      probes := [.lookedUp symbol]
      core := s }
  | .version, s =>
    let (reply, core) := g.core.contractVersion s
    { fault? := (statusFault? reply.status).or <|
        if reply.value = g.spec.version then none
        else some (.contractVersionMismatch g.spec.version reply.value)
      probes := .versionRead :: reply.trace.probes
      core }
  | .checksum symbol expected, s =>
    match g.symbols.find? symbol with
    | none => { fault? := some (.missingSymbol symbol), probes := [.lookedUp symbol], core := s }
    | some _ =>
      let (reply, core) := g.checksum symbol s
      { fault? := if reply.value = expected then none
          else some (.checksumMismatch symbol expected reply.value)
        probes := .lookedUp symbol :: .checksumRead symbol :: reply.trace.probes
        core }
  | .continuation, s =>
    let (reply, core) := g.core.setContinuation Runtime.hostContinuation s
    { fault? := statusFault? reply.status
      probes := .continuationInstalled :: reply.trace.probes
      core }

/-- What checks come to that are made in turn until one fails. -/
def conduct (g : Gate σ) : List Check → σ → Finding σ
  | [], s => { fault? := none, probes := [], core := s }
  | check :: checks, s =>
    let found := g.find check s
    match found.fault? with
    | some _ => found
    | none =>
      let later := g.conduct checks found.core
      { later with probes := found.probes ++ later.probes }

/-- The core after all of the checks. -/
def coreAfter (checks : List Check) (s : σ) : σ :=
  checks.foldl (fun s check => (g.find check s).core) s

/-- The probes of all of the checks. -/
def shown (g : Gate σ) : List Check → σ → Trace
  | [], _ => []
  | check :: checks, s => (g.find check s).probes ++ g.shown checks (g.find check s).core

/-- Whether none of the checks fails, each made on the core as those before it leave it. -/
def AllPass (g : Gate σ) : List Check → σ → Prop
  | [], _ => True
  | check :: checks, s =>
    (g.find check s).fault? = none ∧ g.AllPass checks (g.find check s).core

/-- Whether `fault` is that of the first check that fails, the last one of `made`. -/
def FailsFirst (checks : List Check) (s : σ) (made : List Check) (fault : Fault) : Prop :=
  ∃ before check after, checks = before ++ check :: after ∧ made = before ++ [check] ∧
    g.AllPass before s ∧ (g.find check (g.coreAfter before s)).fault? = some fault

section Conduct

variable {g} {checks later made : List Check} {check : Check} {s : σ} {fault : Fault}

@[simp] theorem coreAfter_cons :
    g.coreAfter (check :: checks) s = g.coreAfter checks (g.find check s).core := rfl

@[simp] theorem coreAfter_append : g.coreAfter (checks ++ later) s =
    g.coreAfter later (g.coreAfter checks s) := List.foldl_append

theorem allPass_append : g.AllPass (checks ++ later) s ↔
    g.AllPass checks s ∧ g.AllPass later (g.coreAfter checks s) := by
  induction checks generalizing s with
  | nil => exact (and_iff_right trivial).symm
  | cons check checks ih =>
    simp only [List.cons_append, AllPass, ih, coreAfter_cons, and_assoc]

theorem conduct_cons_of_fault (h : (g.find check s).fault? = some fault) :
    g.conduct (check :: checks) s = g.find check s := by
  simp only [conduct, h]

theorem conduct_cons_of_pass (h : (g.find check s).fault? = none) :
    g.conduct (check :: checks) s =
      { g.conduct checks (g.find check s).core with
        probes := (g.find check s).probes ++
          (g.conduct checks (g.find check s).core).probes } := by
  simp only [conduct, h]

theorem conduct_of_allPass (h : g.AllPass checks s) : g.conduct checks s =
    { fault? := none, probes := g.shown checks s, core := g.coreAfter checks s } := by
  induction checks generalizing s with
  | nil => rfl
  | cons check checks ih =>
    rw [conduct_cons_of_pass h.1, ih h.2]
    rfl

theorem conduct_append : g.conduct (checks ++ later) s =
    match (g.conduct checks s).fault? with
    | some _ => g.conduct checks s
    | none =>
      { g.conduct later (g.conduct checks s).core with
        probes := (g.conduct checks s).probes ++
          (g.conduct later (g.conduct checks s).core).probes } := by
  induction checks generalizing s with
  | nil => rfl
  | cons check checks ih =>
    rw [List.cons_append]
    cases hfault : (g.find check s).fault? with
    | some fault => simp only [conduct_cons_of_fault hfault, hfault]
    | none =>
      rw [conduct_cons_of_pass hfault, conduct_cons_of_pass hfault, ih]
      cases (g.conduct checks (g.find check s).core).fault? with
      | some fault => rfl
      | none => simp only [List.append_assoc]

/-- Nothing is done beyond the first check that fails. -/
theorem conduct_of_failsFirst (h : g.FailsFirst checks s made fault) : g.conduct checks s =
    { fault? := some fault, probes := g.shown made s, core := g.coreAfter made s } := by
  obtain ⟨before, check, after, rfl, rfl, hbefore, hfault⟩ := h
  induction before generalizing s with
  | nil =>
    have hfault : (g.find check s).fault? = some fault := hfault
    rw [List.nil_append, conduct_cons_of_fault hfault, ← hfault]
    simp only [List.nil_append, shown, List.append_nil]
    rfl
  | cons first before ih =>
    rw [List.cons_append, conduct_cons_of_pass hbefore.1, ih hbefore.2 hfault]
    rfl

theorem allPass_or_failsFirst (g : Gate σ) (checks : List Check) (s : σ) :
    g.AllPass checks s ∨ ∃ made fault, g.FailsFirst checks s made fault := by
  induction checks generalizing s with
  | nil => exact .inl trivial
  | cons check checks ih =>
    cases hfault : (g.find check s).fault? with
    | some fault => exact .inr ⟨_, fault, [], check, checks, rfl, rfl, trivial, hfault⟩
    | none =>
      rcases ih (g.find check s).core with h | ⟨_, fault, before, last, after, rfl, rfl, h, hlast⟩
      · exact .inl ⟨hfault, h⟩
      · exact .inr ⟨_, fault, check :: before, last, after, rfl, rfl, ⟨hfault, h⟩, hlast⟩

end Conduct

/-! ## The gate makes its checks -/

/-- Whether a check that is made in session `s` finds the fault, if any, and leaves `s'`. -/
structure Finds (check : Check) (s : Session σ) (fault? : Option Fault) (s' : Session σ) :
    Prop where
  fault?_eq : (g.find check s.core).fault? = fault?
  core_eq : s'.core = (g.find check s.core).core
  probes_eq : s'.trace.probes = s.trace.probes ++ (g.find check s.core).probes

/-- Whether a host that starts in session `s` answers and leaves what the checks come
to; its answer is `a` if none fails. -/
structure Conducted (checks : List Check) (a : α) (s : Session σ) (answer : Except Fault α)
    (s' : Session σ) : Prop where
  answer_eq : answer = (g.conduct checks s.core).answer a
  core_eq : s'.core = (g.conduct checks s.core).core
  probes_eq : s'.trace.probes = s.trace.probes ++ (g.conduct checks s.core).probes

section Conducted

variable {g} {check : Check} {checks later : List Check} {a : α} {s s₁ s' : Session σ}
  {fault : Fault} {answer : Except Fault α}

theorem conducted_nil (g : Gate σ) (a : α) (s : Session σ) : g.Conducted [] a s (.ok a) s where
  answer_eq := rfl
  core_eq := rfl
  probes_eq := (List.append_nil _).symm

theorem Finds.stop (h : g.Finds check s (some fault) s') (checks : List Check) (a : α) :
    g.Conducted (check :: checks) a s (.error fault) s' := by
  have hconduct : g.conduct (check :: checks) s.core = _ := conduct_cons_of_fault h.fault?_eq
  constructor
  · rw [hconduct, Finding.answer_eq_error.2 h.fault?_eq]
  · rw [hconduct, h.core_eq]
  · rw [hconduct, h.probes_eq]

theorem Conducted.cons (hlater : g.Conducted checks a s₁ answer s')
    (h : g.Finds check s none s₁) : g.Conducted (check :: checks) a s answer s' := by
  have hconduct : g.conduct (check :: checks) s.core = _ := conduct_cons_of_pass h.fault?_eq
  rw [← h.core_eq] at hconduct
  constructor
  · rw [hconduct, hlater.answer_eq]
    rfl
  · rw [hconduct, hlater.core_eq]
  · rw [hconduct, hlater.probes_eq, h.probes_eq, List.append_assoc]

theorem Conducted.append_of_error {b : Unit} (h : g.Conducted checks b s (.error fault) s')
    (later : List Check) (a : α) : g.Conducted (checks ++ later) a s (.error fault) s' := by
  have hfault := Finding.answer_eq_error.1 h.answer_eq.symm
  have hconduct : g.conduct (checks ++ later) s.core = g.conduct checks s.core := by
    rw [conduct_append, hfault]
  constructor
  · rw [hconduct, Finding.answer_eq_error.2 hfault]
  · rw [hconduct, h.core_eq]
  · rw [hconduct, h.probes_eq]

theorem Conducted.append {b : Unit} (h : g.Conducted checks b s (.ok b) s₁)
    (hlater : g.Conducted later a s₁ answer s') :
    g.Conducted (checks ++ later) a s answer s' := by
  have hfault := Finding.fault?_of_answer h.answer_eq.symm
  have hconduct : g.conduct (checks ++ later) s.core = _ := conduct_append
  simp only [hfault, ← h.core_eq] at hconduct
  constructor
  · rw [hconduct, hlater.answer_eq]
    rfl
  · rw [hconduct, hlater.core_eq]
  · rw [hconduct, hlater.probes_eq, h.probes_eq, List.append_assoc]

/-- What is only logged is not seen. -/
theorem Conducted.log (h : g.Conducted checks a s answer s') (level : Level) (text : String) :
    g.Conducted checks a s answer { s' with trace := s'.trace ++ [.log level text] } where
  answer_eq := h.answer_eq
  core_eq := h.core_eq
  probes_eq := by
    rw [Trace.probes_append, h.probes_eq]
    exact List.append_nil _

end Conducted

theorem conducted_checksums (checksums : List (String × Nat)) (s : Session σ) :
    g.Conducted (checksums.map fun e => .checksum e.1 e.2) ()
      s ((g.runtime.verifyChecksums g.checksum checksums).run s).1
        ((g.runtime.verifyChecksums g.checksum checksums).run s).2 := by
  induction checksums generalizing s with
  | nil => exact conducted_nil g () s
  | cons e checksums ih =>
    obtain ⟨symbol, expected⟩ := e
    have hlookup : (g.runtime.symbol symbol).run s = (match g.symbols.find? symbol with
        | some address => .ok address
        | none => .error (.missingSymbol symbol),
        { s with trace := s.trace ++ [.lookedUp symbol] }) := rfl
    unfold Runtime.verifyChecksums
    simp only [HostM.bind_run, hlookup, List.map_cons]
    cases hfind : g.symbols.find? symbol with
    | none =>
      refine Finds.stop ⟨?_, ?_, ?_⟩ _ _
      · simp only [find, hfind]
      · simp only [find, hfind]
        rfl
      · simp only [find, hfind]
        exact Trace.probes_append ..
    | some address =>
      obtain ⟨s', hcall, hcore, hprobes⟩ := HostM.probe_call_run (.checksumRead symbol)
        (g.checksum symbol) { s with trace := s.trace ++ [.lookedUp symbol] }
      rw [g.checksum_status, classifyInfallible_zeroed] at hcall
      rw [Trace.probes_append, List.append_assoc] at hprobes
      simp only [HostM.bind_run, HostM.observe_run, hcall, Except.map]
      have hfinds : g.Finds (.checksum symbol expected) s
          (if (g.checksum symbol s.core).1.value = expected then none
            else some (.checksumMismatch symbol expected (g.checksum symbol s.core).1.value))
          s' := by
        constructor
        · simp only [find, hfind]
        · simp only [find, hfind, hcore]
        · simp only [find, hfind]
          exact hprobes
      by_cases hvalue : (g.checksum symbol s.core).1.value = expected
      · rw [if_pos hvalue] at hfinds
        simp only [if_pos hvalue]
        exact (ih s').cons hfinds
      · rw [if_neg hvalue] at hfinds
        simp only [if_neg hvalue]
        exact hfinds.stop _ ()

theorem statusFault?_cases (status : CallStatus) :
    (Succeeded status ∧ classifyInfallible status = .ok () ∧ statusFault? status = none) ∨
      ∃ fault, ¬ Succeeded status ∧ classifyInfallible status = .error fault ∧
        statusFault? status = some fault := by
  rcases classifyInfallible_cases status with ⟨hstatus, h⟩ | ⟨hstatus, fault, h⟩
  · exact .inl ⟨hstatus, h, by rw [statusFault?, h]⟩
  · exact .inr ⟨fault, hstatus, h, by rw [statusFault?, h]⟩

theorem conducted_contract (s : Session σ) :
    g.Conducted (.version :: g.spec.checksums.map fun e => .checksum e.1 e.2) () s
      ((g.runtime.verify g.core g.checksum g.spec).run s).1
      ((g.runtime.verify g.core g.checksum g.spec).run s).2 := by
  obtain ⟨s', hcall, hcore, hprobes⟩ := HostM.probe_call_run .versionRead g.core.contractVersion s
  have hfinds {fault? : Option Fault} (h : (g.find .version s.core).fault? = fault?) :
      g.Finds .version s fault? s' := ⟨h, hcore, hprobes⟩
  unfold Runtime.verify
  simp only [HostM.bind_run, HostM.observe_run, hcall]
  rcases statusFault?_cases (g.core.contractVersion s.core).1.status with
    ⟨-, hstatus, hfault⟩ | ⟨fault, -, hstatus, hfault⟩
  · rw [hstatus]
    simp only [Except.map]
    by_cases hvalue : (g.core.contractVersion s.core).1.value = g.spec.version
    · have hpass : g.Finds .version s none s' := by
        refine hfinds ?_
        simp only [find, hfault, if_pos hvalue]
        rfl
      have hchecks := g.conducted_checksums g.spec.checksums s'
      simp only [ne_eq, hvalue, not_true, if_false, HostM.bind_run]
      rcases hrun : (g.runtime.verifyChecksums g.checksum g.spec.checksums).run s' with
        ⟨fault | _, s''⟩ <;> rw [hrun] at hchecks
      · exact hchecks.cons hpass
      · exact (hchecks.log _ _).cons hpass
    · simp only [ne_eq, hvalue, not_false_eq_true, if_true]
      refine (hfinds ?_).stop _ ()
      simp only [find, hfault, if_neg hvalue]
      rfl
  · rw [hstatus]
    refine (hfinds ?_).stop _ ()
    simp only [find, hfault]
    rfl

theorem conduct_entryPoints (names : List String) (s : σ) :
    let resolution := g.symbols.resolveAll g.symbolPrefix names
    g.conduct (names.map .entryPoint) s = {
      fault? := resolution.missing.map fun name => .missingSymbol (g.symbolPrefix ++ name)
      probes := resolution.asked.map .lookedUp
      core := s } := by
  induction names with
  | nil => rfl
  | cons name names ih =>
    cases hfind : g.symbols.find? (g.symbolPrefix ++ name) with
    | none =>
      simp only [List.map_cons, conduct, find, SymbolSource.resolveAll, hfind]
      rfl
    | some address =>
      simp only [List.map_cons, conduct, find, SymbolSource.resolveAll, hfind]
      simp only at ih
      rw [ih]
      rfl

theorem conducted_continuation (a : α) (s : Session σ) :
    ∃ answer s', (HostM.call (g.core.setContinuation Runtime.hostContinuation)).run
        { s with trace := s.trace ++ [.continuationInstalled] } = (answer, s') ∧
      g.Conducted [.continuation] a s (answer.map fun () => a) s' := by
  obtain ⟨s', hcall, hcore, hprobes⟩ := HostM.probe_call_run .continuationInstalled
    (g.core.setContinuation Runtime.hostContinuation) s
  refine ⟨_, s', hcall, ?_⟩
  have hfinds {fault? : Option Fault} (h : (g.find .continuation s.core).fault? = fault?) :
      g.Finds .continuation s fault? s' := ⟨h, hcore, hprobes⟩
  rcases statusFault?_cases
      (g.core.setContinuation Runtime.hostContinuation s.core).1.status with
    ⟨-, hstatus, hfault⟩ | ⟨fault, -, hstatus, hfault⟩
  · rw [hstatus]
    exact (conducted_nil g a s').cons (hfinds hfault)
  · rw [hstatus]
    exact (hfinds hfault).stop [] a

theorem conducted_entryPoints (names : List String) (s : Session σ) :
    let resolution := g.symbols.resolveAll g.symbolPrefix names
    g.Conducted (names.map .entryPoint) () s
      (match resolution.missing with
        | some name => .error (.missingSymbol (g.symbolPrefix ++ name))
        | none => .ok ())
      { s with trace := s.trace ++ resolution.asked.map .lookedUp } := by
  intro resolution
  have hconduct := g.conduct_entryPoints names s.core
  have hprobes : Trace.probes (resolution.asked.map .lookedUp) = resolution.asked.map .lookedUp :=
    List.filter_eq_self.2 (by simp [Observation.isProbe])
  constructor
  · rw [hconduct]
    change _ = Finding.answer ⟨resolution.missing.map _, _, _⟩ ()
    cases resolution.missing <;> rfl
  · rw [hconduct]
  · rw [hconduct, Trace.probes_append, hprobes]

/-- The gate does what its checks come to. -/
theorem conducted_checks (s : Session σ) :
    let passed := (Runtime.new g.identity g.symbols g.symbolPrefix g.core g.checksum g.spec).run s
    g.Conducted g.checks g.runtime s passed.1 passed.2 := by
  have hentry := g.conducted_entryPoints runtimeSymbols s
  unfold Runtime.new checks
  simp only [HostM.bind_run, HostM.observe_run]
  simp only at hentry
  cases hmissing : (g.symbols.resolveAll g.symbolPrefix runtimeSymbols).missing with
  | some name =>
    rw [hmissing] at hentry
    exact hentry.append_of_error _ _
  | none =>
    rw [hmissing] at hentry
    refine hentry.append ?_
    rw [← List.cons_append]
    have hcontract := g.conducted_contract { s with
      trace := s.trace ++ (g.symbols.resolveAll g.symbolPrefix runtimeSymbols).asked.map .lookedUp }
    change g.Conducted _ _ _ ((g.runtime.verify g.core g.checksum g.spec >>= _).run _).1
      ((g.runtime.verify g.core g.checksum g.spec >>= _).run _).2
    rw [HostM.bind_run]
    rcases hverify : (g.runtime.verify g.core g.checksum g.spec).run _ with ⟨fault | _, s₁⟩ <;>
      rw [hverify] at hcontract
    · exact hcontract.append_of_error _ _
    · obtain ⟨answer, s₂, hcall, hlast⟩ := g.conducted_continuation g.runtime s₁
      refine hcontract.append ?_
      simp only [HostM.bind_run, HostM.observe_run, hcall]
      cases answer with
      | error fault => exact hlast
      | ok _ => exact hlast.log _ _

/-! ## The verdict -/

/-- The core after these checksum functions were called. -/
def called (checksums : List (String × Nat)) (s : σ) : σ :=
  checksums.foldl (fun s e => (g.checksum e.1 s).2) s

/-- What a core in state `s` has to offer. -/
structure Passes (s : σ) : Prop where
  entryPoints : ∀ name ∈ runtimeSymbols, g.symbols.Resolves (g.symbolPrefix ++ name)
  reported : Succeeded (g.core.contractVersion s).1.status
  version : (g.core.contractVersion s).1.value = g.spec.version
  checksums : ∀ before symbol expected after,
    g.spec.checksums = before ++ (symbol, expected) :: after → g.symbols.Resolves symbol ∧
      (g.checksum symbol (g.called before (g.core.contractVersion s).2)).1.value = expected
  continuation : Succeeded (g.core.setContinuation Runtime.hostContinuation
    (g.called g.spec.checksums (g.core.contractVersion s).2)).1.status

section Passes

variable {g} {s : σ} {name symbol : String} {expected : Nat}

theorem statusFault?_eq_none {status : CallStatus} :
    statusFault? status = none ↔ Succeeded status := by
  rcases statusFault?_cases status with ⟨hstatus, -, hfault⟩ | ⟨fault, hstatus, -, hfault⟩
  · exact iff_of_true hfault hstatus
  · exact iff_of_false (by rw [hfault]; exact Option.some_ne_none fault) hstatus

theorem entryPoint_passes :
    (g.find (.entryPoint name) s).fault? = none ↔ g.symbols.Resolves (g.symbolPrefix ++ name) := by
  rw [SymbolSource.resolves_iff]
  cases hfind : g.symbols.find? (g.symbolPrefix ++ name) <;> simp [find, hfind]

theorem version_passes : (g.find .version s).fault? = none ↔
    Succeeded (g.core.contractVersion s).1.status ∧
      (g.core.contractVersion s).1.value = g.spec.version := by
  rw [← statusFault?_eq_none]
  simp [find]

theorem checksum_passes : (g.find (.checksum symbol expected) s).fault? = none ↔
    g.symbols.Resolves symbol ∧ (g.checksum symbol s).1.value = expected := by
  rw [SymbolSource.resolves_iff]
  cases hfind : g.symbols.find? symbol <;> simp [find, hfind]

theorem core_of_checksum_passes (h : (g.find (.checksum symbol expected) s).fault? = none) :
    (g.find (.checksum symbol expected) s).core = (g.checksum symbol s).2 := by
  obtain ⟨address, hfind⟩ := SymbolSource.resolves_iff.1 (checksum_passes.1 h).1
  simp only [find, hfind]

theorem continuation_passes : (g.find .continuation s).fault? = none ↔
    Succeeded (g.core.setContinuation Runtime.hostContinuation s).1.status :=
  statusFault?_eq_none

theorem coreAfter_entryPoints (names : List String) :
    g.coreAfter (names.map .entryPoint) s = s := by
  induction names with
  | nil => rfl
  | cons name names ih => exact ih

theorem allPass_entryPoints (names : List String) : g.AllPass (names.map .entryPoint) s ↔
    ∀ name ∈ names, g.symbols.Resolves (g.symbolPrefix ++ name) := by
  induction names with
  | nil => exact iff_of_true trivial fun name h => absurd h List.not_mem_nil
  | cons name names ih =>
    rw [List.forall_mem_cons, ← ih, ← entryPoint_passes]
    rfl

theorem coreAfter_checksums {checksums : List (String × Nat)}
    (h : g.AllPass (checksums.map fun e => .checksum e.1 e.2) s) :
    g.coreAfter (checksums.map fun e => .checksum e.1 e.2) s = g.called checksums s := by
  induction checksums generalizing s with
  | nil => rfl
  | cons e checksums ih =>
    rw [List.map_cons, coreAfter_cons, ih h.2, core_of_checksum_passes h.1]
    rfl

theorem allPass_checksums {checksums : List (String × Nat)} :
    g.AllPass (checksums.map fun e => .checksum e.1 e.2) s ↔
      ∀ before symbol expected after, checksums = before ++ (symbol, expected) :: after →
        g.symbols.Resolves symbol ∧ (g.checksum symbol (g.called before s)).1.value = expected := by
  induction checksums generalizing s with
  | nil =>
    refine iff_of_true trivial ?_
    intro before symbol expected after h
    simp at h
  | cons e checksums ih =>
    obtain ⟨symbol, expected⟩ := e
    constructor
    · rintro ⟨hfirst, hothers⟩ before symbol expected after h
      rw [core_of_checksum_passes hfirst] at hothers
      cases before with
      | nil =>
        obtain ⟨heq, -⟩ := List.cons.inj h
        obtain ⟨rfl, rfl⟩ := Prod.mk.inj heq
        exact checksum_passes.1 hfirst
      | cons first before =>
        obtain ⟨rfl, hrest⟩ := List.cons.inj h
        exact ih.1 hothers before symbol expected after hrest
    · intro h
      have hfirst : (g.find (.checksum symbol expected) s).fault? = none :=
        checksum_passes.2 (h [] symbol expected checksums rfl)
      refine ⟨hfirst, ?_⟩
      rw [core_of_checksum_passes hfirst]
      refine ih.2 fun before other value after hsplit => ?_
      exact h ((symbol, expected) :: before) other value after (congrArg _ hsplit)

theorem allPass_checks : g.AllPass g.checks s ↔ g.Passes s := by
  have hversion : (g.find .version s).core = (g.core.contractVersion s).2 := rfl
  rw [checks, allPass_append, allPass_entryPoints, coreAfter_entryPoints]
  constructor
  · rintro ⟨hnames, hreport, hlast⟩
    rw [allPass_append, hversion] at hlast
    obtain ⟨hsums, hlast, -⟩ := hlast
    rw [coreAfter_checksums hsums] at hlast
    exact ⟨hnames, (version_passes.1 hreport).1, (version_passes.1 hreport).2,
      allPass_checksums.1 hsums, continuation_passes.1 hlast⟩
  · intro h
    have hsums := allPass_checksums.2 h.checksums
    refine ⟨h.entryPoints, version_passes.2 ⟨h.reported, h.version⟩, ?_⟩
    rw [allPass_append, hversion]
    refine ⟨hsums, ?_, trivial⟩
    rw [coreAfter_checksums hsums]
    exact continuation_passes.2 h.continuation

end Passes

/-- The continuation is asked for last. -/
theorem continuation_last {made : List Check} {s : σ} {fault : Fault}
    (h : g.FailsFirst g.checks s made fault) (hmem : Check.continuation ∈ made) :
    made = g.checks := by
  obtain ⟨before, check, after, hsplit, rfl, -, -⟩ := h
  rcases after.eq_nil_or_concat with rfl | ⟨after, last, rfl⟩
  · exact hsplit.symm
  · have happend : runtimeSymbols.map .entryPoint ++
        .version :: g.spec.checksums.map (fun e => .checksum e.1 e.2) ++ [.continuation] =
          before ++ check :: after ++ [last] := by
      rw [List.concat_eq_append] at hsplit
      simpa [checks] using hsplit
    have hinit := (List.append_inj' happend rfl).1
    have hmem' : Check.continuation ∈ before ++ check :: after := by
      simp only [List.mem_append, List.mem_cons, List.not_mem_nil, or_false] at hmem ⊢
      exact hmem.imp_right .inl
    rw [← hinit] at hmem'
    simp at hmem'

/-- The checksums among the checks, in order. -/
def sums (checks : List Check) : List (String × Nat) :=
  checks.filterMap fun
    | .checksum symbol expected => some (symbol, expected)
    | _ => none

theorem mem_sums {checks : List Check} {symbol : String} {expected : Nat} :
    (symbol, expected) ∈ sums checks ↔ .checksum symbol expected ∈ checks := by
  rw [sums, List.mem_filterMap]
  constructor
  · rintro ⟨check, hmem, hsum⟩
    cases check with
    | checksum other value =>
      obtain ⟨rfl, rfl⟩ := Prod.mk.inj (Option.some.inj hsum)
      exact hmem
    | _ => cases hsum
  · exact fun hmem => ⟨_, hmem, rfl⟩

theorem sums_checks : sums g.checks = g.spec.checksums := by
  have hnames : sums (runtimeSymbols.map .entryPoint) = [] := by decide
  have hsums : sums (g.spec.checksums.map fun e => .checksum e.1 e.2) = g.spec.checksums := by
    rw [sums, List.filterMap_map]
    exact List.filterMap_some
  rw [sums] at hnames hsums ⊢
  rw [checks, List.filterMap_append, hnames, List.filterMap_cons_none rfl, List.filterMap_append,
    hsums]
  exact List.append_nil _

theorem checksums_ascend {before after : List Check} {symbol : String} {expected : Nat}
    (h : g.checks = before ++ .checksum symbol expected :: after) (other : String) (value : Nat) :
    .checksum other value ∈ before ↔ (other, value) ∈ g.spec.checksums ∧ other < symbol := by
  have hsplit : g.spec.checksums = sums before ++ (symbol, expected) :: sums after := by
    rw [← sums_checks, h, sums, List.filterMap_append]
    rfl
  have hascending := g.ascending
  rw [hsplit, List.pairwise_append, List.pairwise_cons] at hascending
  obtain ⟨-, ⟨hafter, -⟩, hbefore⟩ := hascending
  rw [← mem_sums, hsplit]
  constructor
  · exact fun hmem => ⟨List.mem_append_left _ hmem, hbefore _ hmem _ List.mem_cons_self⟩
  · rintro ⟨hmem, hlt⟩
    rcases List.mem_append.1 hmem with hmem | hmem
    · exact hmem
    · rcases List.mem_cons.1 hmem with heq | hmem
      · obtain ⟨rfl, -⟩ := Prod.mk.inj heq
        exact absurd hlt (String.lt_irrefl other)
      · exact absurd hlt (String.lt_asymm (hafter _ hmem))

/-- What the gate decides of a core, and what it has done by then. -/
structure Decides (s : Session σ) (verdict : Except Fault Runtime) (s' : Session σ) : Prop where
  /-- A core is accepted iff it has all to offer. -/
  accepted_iff : (∃ r, verdict = .ok r) ↔ g.Passes s.core
  /-- The fault is that of the first check that fails. -/
  refused_iff : ∀ fault, verdict = .error fault ↔ ∃ made, g.FailsFirst g.checks s.core made fault
  /-- All checks were made of a core that is accepted. -/
  accepted : ∀ r, verdict = .ok r → r = g.runtime ∧
    s'.core = g.coreAfter g.checks s.core ∧
    s'.trace.probes = s.trace.probes ++ g.shown g.checks s.core
  /-- None was made beyond the first that fails: nothing else was looked up or called,
  nor the continuation installed unless that was the check. -/
  refused : ∀ made fault, g.FailsFirst g.checks s.core made fault →
    s'.core = g.coreAfter made s.core ∧
    s'.trace.probes = s.trace.probes ++ g.shown made s.core ∧
    (.continuation ∈ made → made = g.checks)
  /-- A checksum is checked after those of smaller symbols. -/
  ascending : ∀ before symbol expected after,
    g.checks = before ++ .checksum symbol expected :: after → ∀ other value,
      .checksum other value ∈ before ↔ (other, value) ∈ g.spec.checksums ∧ other < symbol

/-- Whatever is exported and however the core behaves, the gate accepts it iff every check
passes, and its fault is that of the first check that fails: of the entry points in their
order, the contract version, the checksums by ascending symbol and the continuation. What
it has looked up, called and installed are the checks up to that one. -/
theorem gate_decides (s : Session σ) :
    let passed := (Runtime.new g.identity g.symbols g.symbolPrefix g.core g.checksum g.spec).run s
    g.Decides s passed.1 passed.2 := by
  intro passed
  obtain ⟨hanswer, hcore, hprobes⟩ := g.conducted_checks s
  have hpass (h : g.AllPass g.checks s.core) := conduct_of_allPass h
  have hfail {made fault} (h : g.FailsFirst g.checks s.core made fault) := conduct_of_failsFirst h
  have haccept (h : g.AllPass g.checks s.core) : passed.1 = .ok g.runtime := by
    rw [hanswer, hpass h]
    rfl
  have hrefuse {made fault} (h : g.FailsFirst g.checks s.core made fault) :
      passed.1 = .error fault := by
    rw [hanswer, hfail h]
    rfl
  constructor
  · rw [← allPass_checks]
    refine ⟨?_, fun h => ⟨_, haccept h⟩⟩
    rintro ⟨r, hr⟩
    rcases g.allPass_or_failsFirst g.checks s.core with h | ⟨made, fault, h⟩
    · exact h
    · cases (hrefuse h).symm.trans hr
  · intro fault
    refine ⟨fun hverdict => ?_, fun ⟨_, h⟩ => hrefuse h⟩
    rcases g.allPass_or_failsFirst g.checks s.core with h | ⟨made, other, h⟩
    · cases (haccept h).symm.trans hverdict
    · obtain rfl := Except.error.inj ((hrefuse h).symm.trans hverdict)
      exact ⟨made, h⟩
  · intro r hr
    rcases g.allPass_or_failsFirst g.checks s.core with h | ⟨made, fault, h⟩
    · refine ⟨Except.ok.inj (hr.symm.trans (haccept h)), ?_, ?_⟩
      · rw [hcore, hpass h]
      · rw [hprobes, hpass h]
    · cases (hrefuse h).symm.trans hr
  · intro made fault h
    refine ⟨?_, ?_, g.continuation_last h⟩
    · rw [hcore, hfail h]
    · rw [hprobes, hfail h]
  · exact fun before symbol expected after => g.checksums_ascend

/-- The core of this library, where one of two checksum functions has the null address. -/
def withNullChecksum : Gate Core.State where
  identity := 0
  symbols name := some (if name = "sum_b" then 0 else 1)
  symbolPrefix := "room_"
  core := Core.machine
  checksum _ s := ({ value := 7 }, s)
  spec := { version := contractVersion, checksums := [("sum_a", 7), ("sum_b", 8)] }
  checksum_status _ _ := rfl
  ascending := by decide

/-- The null address is what the core is refused for, and no continuation is installed in it. -/
theorem gate_decides_null_checksum :
    let g := withNullChecksum
    let passed := (Runtime.new g.identity g.symbols g.symbolPrefix g.core g.checksum g.spec).run
      { core := {} }
    passed.1 = .error (.missingSymbol "sum_b") ∧ ¬ g.Passes {} ∧
      (∃ made, g.FailsFirst g.checks {} made (.missingSymbol "sum_b")) ∧
      passed.2.core.continuation = none := by
  intro g passed
  have hverdict : passed.1 = .error (.missingSymbol "sum_b") := by rfl
  have hdecides : g.Decides { core := {} } passed.1 passed.2 := g.gate_decides { core := {} }
  refine ⟨hverdict, fun hpasses => ?_, (hdecides.refused_iff _).1 hverdict, rfl⟩
  obtain ⟨r, hr⟩ := hdecides.accepted_iff.2 hpasses
  cases hverdict.symm.trans hr

end Gate
end Host
end CoreBridge
