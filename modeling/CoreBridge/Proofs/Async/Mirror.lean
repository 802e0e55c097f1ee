import CoreBridge.Proofs.Async.Record

/-!
# Recording changes nothing

A host does with a core that keeps a record what it does with the core itself,
the record apart. So what is proved of hosts of spied cores holds of all hosts.
-/
namespace CoreBridge.Host

/-- The session without the record. -/
def Session.unspied {σ : Type} (s : Session (Spied σ)) : Session σ := { s with core := s.core.core }

/-- The session with less of its core. -/
def Session.through {τ σ : Type} (f : τ → σ) (s : Session τ) : Session σ :=
  { s with core := f s.core }

/-- A step of a host does what another does that sees less of its core. -/
def Mirrors {τ σ α : Type} (f : τ → σ) (x : HostM τ α) (y : HostM σ α) : Prop :=
  ∀ s, y.run (s.through f) = ((x.run s).1, (x.run s).2.through f)

namespace Mirrors

variable {τ σ α β ε : Type} {f : τ → σ}

theorem pure (a : α) : Mirrors f (Pure.pure a) (Pure.pure a) := fun _ => rfl

theorem bind {x : HostM τ α} {y : HostM σ α} {next : α → HostM τ β} {next' : α → HostM σ β}
    (hx : Mirrors f x y) (hnext : ∀ a, Mirrors f (next a) (next' a)) :
    Mirrors f (x >>= next) (y >>= next') := by
  intro s
  simp only [StateT.run_bind, hx s]
  exact hnext _ _

theorem onWakes (step : WakeRegistry → α × WakeRegistry) :
    Mirrors f (HostM.onWakes step) (HostM.onWakes step) := fun _ => rfl

theorem observe (trace : Trace) : Mirrors f (HostM.observe trace) (HostM.observe trace) :=
  fun _ => rfl

theorem release (buffer : Buffer) :
    Mirrors f (HostM.release buffer) (HostM.release buffer) := fun _ => rfl

theorem absorb (trace : Trace) : Mirrors f (HostM.absorb trace) (HostM.absorb trace) := by
  induction trace with
  | nil => exact pure ()
  | cons o trace ih =>
    unfold HostM.absorb
    refine bind (observe [o]) fun _ => ?_
    cases o with
    | fired id result =>
      refine bind ?_ fun _ => ih
      exact bind (onWakes _) fun trace => observe trace
    | _ => exact bind (pure ()) fun _ => ih

/-! ## Calls -/

variable {recorded : τ → Reply α × τ} {transition : σ → Reply α × σ}

theorem enter (h : ∀ s, transition (f s) = ((recorded s).1, f (recorded s).2)) :
    Mirrors f (HostM.enter recorded) (HostM.enter transition) := by
  intro s
  have habsorb := absorb (f := f) (recorded s.core).1.trace { s with core := (recorded s.core).2 }
  have hrun : (HostM.enter transition).run (s.through f) =
      (((transition (f s.core)).1.value, (transition (f s.core)).1.status),
        ((HostM.absorb (transition (f s.core)).1.trace).run
          { (s.through f) with core := (transition (f s.core)).2 }).2) := rfl
  rw [hrun, h s.core]
  exact congrArg (fun answer => (((recorded s.core).1.value, (recorded s.core).1.status), answer.2))
    habsorb

theorem call (h : ∀ s, transition (f s) = ((recorded s).1, f (recorded s).2))
    (shown : α → Trace) : Mirrors f (HostM.call recorded shown) (HostM.call transition shown) := by
  refine bind (enter h) fun answer => ?_
  exact bind (observe _) fun _ => bind (release _) fun _ => pure _

theorem callFallible (h : ∀ s, transition (f s) = ((recorded s).1, f (recorded s).2))
    (decode : Bytes → Except Wire.DecodeError ε) :
    Mirrors f (HostM.callFallible decode recorded) (HostM.callFallible decode transition) := by
  refine bind (enter h) fun answer => ?_
  exact bind (release _) fun _ => pure _

/-! ## The driving of a task -/

variable (core : Core.EntryPoints σ) (number task : Nat)

theorem poll (report : PollReport) :
    Mirrors Spied.core (Drive.poll (spy core) number task report)
      (Drive.poll core number task report) := by
  unfold Drive.poll
  refine bind (onWakes _) fun id => bind (call (fun _ => rfl) _) fun answer => ?_
  cases answer with
  | error fault => exact bind (onWakes _) fun _ => pure _
  | ok answer =>
    dsimp only
    split
    · exact bind (onWakes _) fun _ => pure _
    · exact pure _

theorem receive (id : Nat) (report : PollReport) :
    Mirrors f (Drive.receive id report) (Drive.receive id report) := by
  refine bind (onWakes _) fun result => ?_
  cases result with
  | none => exact bind (onWakes _) fun _ => pure _
  | some result => exact bind (onWakes _) fun _ => pure _

theorem run (fuel : Nat) (d : Drive) :
    Mirrors Spied.core (Drive.run (spy core) number task fuel d)
      (Drive.run core number task fuel d) := by
  induction fuel generalizing d with
  | zero => exact pure d
  | succ fuel ih =>
    unfold Drive.run
    cases d with
    | polling report =>
      refine bind (poll core number task report) fun d => ?_
      cases d with
      | waiting id report =>
        refine bind (receive id report) fun d => ?_
        cases d with
        | polling report => exact ih _
        | _ => exact pure _
      | _ => exact pure _
    | waiting id report =>
      simp only [pure_bind]
      refine bind (receive id report) fun d => ?_
      cases d with
      | polling report => exact ih _
      | _ => exact pure _
    | _ =>
      simp only [pure_bind]
      exact pure _

theorem abandon (d : Drive) : Mirrors f d.abandon d.abandon := by
  cases d with
  | waiting id report => exact onWakes fun r => ((), r.unregister id true)
  | _ => exact pure ()

theorem collect (decode : Bytes → Except Wire.DecodeError ε) (flavour : Flavour) :
    Mirrors Spied.core (collect (spy core) decode flavour task)
      (collect core decode flavour task) :=
  bind (observe _) fun _ => callFallible (fun _ => rfl) decode

theorem cancelTask : Mirrors Spied.core (cancelTask (spy core) task) (cancelTask core task) :=
  bind (observe _) fun _ => call (fun _ => rfl) _

theorem freeTask : Mirrors Spied.core (freeTask (spy core) task) (freeTask core task) :=
  bind (observe _) fun _ => call (fun _ => rfl) _

theorem noteFailure (verb : String) (answer : Except Fault Unit) :
    Mirrors f (Call.noteFailure task verb answer) (Call.noteFailure task verb answer) := by
  cases answer with
  | ok _ => exact pure ()
  | error fault => exact fun _ => rfl

theorem giveUp (cancelFirst : Bool) :
    Mirrors Spied.core (Call.giveUp (spy core) task cancelFirst)
      (Call.giveUp core task cancelFirst) := by
  have hfree := bind (freeTask core task) (noteFailure task "free")
  cases cancelFirst with
  | false => exact hfree
  | true =>
    unfold Call.giveUp
    simp only [if_true]
    exact bind (cancelTask core task) fun answer => bind (noteFailure task "cancel" answer) fun _ =>
      hfree

theorem settle (op : Operation σ ε) (d : Drive) :
    Mirrors Spied.core (Call.settle (spy core) op.spied task d) (Call.settle core op task d) := by
  cases d with
  | finished report =>
    exact bind (collect core task op.decode op.flavour) fun _ =>
      bind (giveUp core task false) fun _ => pure _
  | failed fault => exact bind (giveUp core task true) fun _ => pure _
  | _ => exact pure _

/-- A poll of the future of a call. -/
theorem callPoll (op : Operation σ ε) (fuel : Nat) (c : Call ε) :
    Mirrors Spied.core (c.poll (spy core) op.spied number fuel) (c.poll core op number fuel) := by
  cases c with
  | unstarted =>
    refine bind (callFallible (fun _ => rfl) op.decode) fun answer => ?_
    cases answer with
    | error error => exact pure _
    | ok task => exact bind (run core number task fuel _) (settle core task op)
  | driving task d => exact bind (run core number task fuel d) (settle core task op)
  | _ => exact pure _

/-- A drop of the future of a call. -/
theorem callDrop (c : Call ε) : Mirrors Spied.core (c.drop (spy core)) (c.drop core) := by
  cases c with
  | driving task d => exact bind (abandon d) fun _ => bind (giveUp core task true) fun _ => pure _
  | _ => exact pure _

end Mirrors
end CoreBridge.Host
