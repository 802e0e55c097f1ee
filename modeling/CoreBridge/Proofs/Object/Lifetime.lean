import CoreBridge.Host.Object
import CoreBridge.Proofs.Async.Mirror
import Mathlib

/-!
# The lifetime of an object

An object is borrowed by guards, which are dropped in any order, disposed of
any number of times, and at last dropped by its owner, when no guard is left.
Whatever the core's functions report, the counter and the flag of the object
say how many guards are alive, and the core's free function has been called
once if the object is disposed of without guards and not at all otherwise. So it
is called in the very step that brings this about, and never again.
-/
namespace CoreBridge.Host

variable {σ : Type}

/-- The functions of a core that also record each call to free an object. -/
def ObjectFunctions.spied (fs : ObjectFunctions σ) : ObjectFunctions (Spied σ) where
  clone? := fs.clone?.map fun clone pointer s =>
    let (reply, core) := clone pointer s.core
    (reply, { s with core })
  free pointer := Spied.note (fun _ => .other) (fs.free pointer)

namespace Mirrors

variable (fs : ObjectFunctions σ) (o : Object)

theorem objectRelease : Mirrors Spied.core (o.release fs.spied) (o.release fs) := by
  unfold Object.release
  by_cases hlast : o.callCounter = 0
  · simp only [hlast, if_true]
    have hfree : Mirrors Spied.core (o.free fs.spied) (o.free fs) := by
      refine bind (observe _) fun _ => bind (call (fun _ => rfl) _) fun answer => ?_
      cases answer with
      | ok _ => exact pure _
      | error fault => exact observe _
    exact bind hfree fun _ => pure _
  · simp only [hlast, if_false]
    exact pure _

theorem objectBorrow : Mirrors Spied.core (o.borrow fs.spied) (o.borrow fs) := by
  unfold Object.borrow
  split_ifs
  · exact pure _
  · exact pure _
  · cases hclone : fs.clone? with
    | none =>
      simp only [ObjectFunctions.spied, hclone, Option.map_none]
      exact pure _
    | some clone =>
      simp only [ObjectFunctions.spied, hclone, Option.map_some]
      refine bind (observe _) fun _ => bind (call (fun _ => rfl) _) fun answer => ?_
      cases answer with
      | ok pointer => exact pure _
      | error fault => exact bind (objectRelease fs _) fun _ => pure _

theorem objectDispose : Mirrors Spied.core (o.dispose fs.spied) (o.dispose fs) := by
  unfold Object.dispose
  split_ifs
  · exact pure o
  · exact objectRelease fs _

end Mirrors

/-! ## The steps of an object -/

/-- How often a core has been told to free an object. -/
def Session.frees (s : Session (Spied σ)) : Nat := (Event.entries s.core.record).length

namespace Object

variable (fs : ObjectFunctions σ) (o : Object) (s : Session (Spied σ))

/-- Freeing calls the core's function once, whatever that reports. -/
theorem free_run : ∃ s', (o.free fs.spied).run s = ((), s') ∧ s'.frees = s.frees + 1 := by
  obtain ⟨s₁, hcall, hcore, _⟩ := HostM.call_run (fs.spied.free o.pointer) (fun _ => [])
    { s with trace := s.trace ++ [.freeObject o.pointer] }
  have hfrees : s₁.frees = s.frees + 1 := by
    have hrecord : s₁.core.record = s.core.record ++
        .entered .other :: Event.ofTrace (fs.free o.pointer s.core.core).1.trace := by
      rw [hcore]
      rfl
    simp [Session.frees, hrecord]
  have hobserve : (HostM.observe [.freeObject o.pointer] : HostM (Spied σ) Unit).run s =
      ((), { s with trace := s.trace ++ [.freeObject o.pointer] }) := rfl
  unfold Object.free
  simp only [StateT.run_bind, hobserve]
  dsimp only [Bind.bind]
  rw [hcall]
  cases classifyInfallible (fs.spied.free o.pointer s.core).1.status with
  | ok _ => exact ⟨s₁, rfl, hfrees⟩
  | error fault => exact ⟨_, rfl, hfrees⟩

/-- Giving up a reference takes one off the counter, and frees if there was none left to give. -/
theorem release_run : ∃ s', (o.release fs.spied).run s =
      ({ o with callCounter := o.callCounter - 1 }, s') ∧
    s'.frees = s.frees + if o.callCounter = 0 then 1 else 0 := by
  unfold Object.release
  by_cases hlast : o.callCounter = 0
  · obtain ⟨s₁, hfree, hfrees⟩ := o.free_run fs s
    simp only [hlast, if_true, StateT.run_bind, hfree]
    exact ⟨s₁, rfl, hfrees⟩
  · simp only [hlast, if_false]
    exact ⟨s, rfl, rfl⟩

/-- Disposing of an object a second time has no effect. -/
theorem dispose_run : ∃ s', (o.dispose fs.spied).run s = ({ o with
      destroyed := true
      callCounter := if o.destroyed then o.callCounter else o.callCounter - 1 }, s') ∧
    s'.frees = s.frees + if o.destroyed = false ∧ o.callCounter = 0 then 1 else 0 := by
  unfold Object.dispose
  cases hdestroyed : o.destroyed with
  | true =>
    refine ⟨s, ?_, by simp⟩
    obtain ⟨typeName, pointer, counter, destroyed⟩ := o
    obtain rfl : destroyed = true := hdestroyed
    rfl
  | false =>
    obtain ⟨s₁, hrelease, hfrees⟩ := release_run fs { o with destroyed := true } s
    refine ⟨s₁, ?_, by simpa using hfrees⟩
    simpa using hrelease

/-- Whether the core hands out a reference of its own to an object, if it is asked to. -/
def Lends (fs : ObjectFunctions σ) (o : Object) (core : σ) : Prop :=
  ∀ clone, fs.clone? = some clone → Succeeded (clone o.pointer core).1.status

/-- The pointer that a borrow answers: the object's own, or that of a clone. -/
def lentPointer (fs : ObjectFunctions σ) (o : Object) (core : σ) : Nat :=
  match fs.clone? with
  | none => o.pointer
  | some clone => (clone o.pointer core).1.value

theorem lends_of_none (hclone : fs.clone? = none) (core : σ) : Lends fs o core := by
  intro clone hsome
  rw [hclone] at hsome
  cases hsome

theorem lends_iff {clone : Nat → σ → Reply Nat × σ} (hclone : fs.clone? = some clone) (core : σ) :
    Lends fs o core ↔ Succeeded (clone o.pointer core).1.status := by
  constructor
  · intro hall
    exact hall clone hclone
  · intro hok other hother
    obtain rfl := Option.some.inj (hclone.symm.trans hother)
    exact hok

/-- Asking the core for a reference of its own frees nothing. -/
theorem clone_run (clone : Nat → σ → Reply Nat × σ) :
    let reply := (clone o.pointer s.core.core).1
    ∃ s', (HostM.call (fun spied : Spied σ => ((clone o.pointer spied.core).1,
        { spied with core := (clone o.pointer spied.core).2 })) fun _ => []).run
          { s with trace := s.trace ++ [.cloneObject o.pointer] } =
        ((classifyInfallible reply.status).map fun () => reply.value, s') ∧
      s'.frees = s.frees := by
  intro reply
  obtain ⟨s', hcall, hcore, _⟩ := HostM.call_run
    (fun spied : Spied σ => ((clone o.pointer spied.core).1,
      { spied with core := (clone o.pointer spied.core).2 })) (fun _ => [])
    { s with trace := s.trace ++ [.cloneObject o.pointer] }
  exact ⟨s', hcall, by simp only [Session.frees, hcore]⟩

/-- A borrow frees nothing. It succeeds if the object is not disposed of, the
counter not at its limit and the core lends; else it leaves the object as it was. -/
theorem borrow_run (hcounter : -1 ≤ o.callCounter)
    (hreleased : o.callCounter = -1 → o.destroyed = true) : ∃ answer after s',
    (o.borrow fs.spied).run s = ((answer, after), s') ∧ s'.frees = s.frees ∧
      (o.destroyed = false ∧ o.callCounter ≠ maxBorrows ∧ Lends fs o s.core.core ∧
          answer = .ok (lentPointer fs o s.core.core) ∧
          after = { o with callCounter := o.callCounter + 1 } ∨
        ¬ (o.destroyed = false ∧ o.callCounter ≠ maxBorrows ∧ Lends fs o s.core.core) ∧
          (∃ fault, answer = .error fault) ∧ after = o) := by
  unfold Object.borrow
  by_cases hdestroyed : o.callCounter ≤ -1 ∨ o.destroyed = true
  · have hflag : o.destroyed = true := by
      obtain hlow | hflag := hdestroyed
      · exact hreleased (le_antisymm hlow hcounter)
      · exact hflag
    rw [if_pos hdestroyed]
    exact ⟨_, o, s, rfl, rfl, .inr ⟨by simp [hflag], ⟨_, rfl⟩, rfl⟩⟩
  obtain ⟨hlow, hflag⟩ := not_or.1 hdestroyed
  have hflag : o.destroyed = false := by simpa using hflag
  rw [if_neg hdestroyed]
  by_cases hlimit : o.callCounter = maxBorrows
  · rw [if_pos hlimit]
    exact ⟨_, o, s, rfl, rfl, .inr ⟨by simp [hlimit], ⟨_, rfl⟩, rfl⟩⟩
  rw [if_neg hlimit]
  cases hclone : fs.clone? with
  | none =>
    simp only [ObjectFunctions.spied, hclone, Option.map_none]
    refine ⟨_, _, s, rfl, rfl, .inl ⟨hflag, hlimit, lends_of_none fs o hclone _, ?_, rfl⟩⟩
    simp only [lentPointer, hclone]
  | some clone =>
    simp only [ObjectFunctions.spied, hclone, Option.map_some]
    obtain ⟨s₁, hcall, hfrees⟩ := o.clone_run s clone
    have hobserve : (HostM.observe [.cloneObject o.pointer] : HostM (Spied σ) Unit).run s =
        ((), { s with trace := s.trace ++ [.cloneObject o.pointer] }) := rfl
    simp only [StateT.run_bind, hobserve]
    dsimp only [Bind.bind]
    rw [hcall]
    rw [lends_iff fs o hclone]
    have hcases := classifyInfallible_cases (clone o.pointer s.core.core).1.status
    obtain ⟨hok, hclass⟩ | ⟨hnot, fault, hclass⟩ := hcases
    · rw [hclass]
      refine ⟨_, _, s₁, rfl, hfrees, .inl ⟨hflag, hlimit, hok, ?_, rfl⟩⟩
      simp only [lentPointer, hclone]
    · rw [hclass]
      -- The borrow is given back; as it was counted, this cannot be the last reference.
      obtain ⟨s₂, hrelease, hback⟩ :=
        release_run fs { o with callCounter := o.callCounter + 1 } s₁
      have hcounted : o.callCounter + 1 ≠ 0 := by omega
      rw [if_neg hcounted] at hback
      refine ⟨.error fault, o, s₂, ?_, hback.trans hfrees,
        .inr ⟨fun hand => hnot hand.2.2, ⟨fault, rfl⟩, rfl⟩⟩
      have hsame : o.callCounter + 1 - 1 = o.callCounter := by omega
      simp only [hsame] at hrelease
      exact congrArg (fun answer => ((Except.error fault, answer.1), answer.2)) hrelease

end Object

/-! ## Whole lives -/

/-- An object in its host, with the pointers of the guards that are alive. -/
structure Governed (σ : Type) where
  object : Object
  guards : List Nat := []
  /-- Whether the owner has dropped the object. -/
  dropped : Bool := false
  session : Session (Spied σ)

namespace Governed

variable (fs : ObjectFunctions σ) (g : Governed σ)

/-- Borrows the object; a borrow that succeeds makes a guard. -/
def borrow : Except Fault Nat × Governed σ :=
  let ((answer, object), session) := (g.object.borrow fs.spied).run g.session
  (answer, { g with
    object, session
    guards := match answer with
      | .ok pointer => pointer :: g.guards
      | .error _ => g.guards })

/-- Drops the guard at a position. -/
def dropGuard (n : Nat) : Governed σ :=
  let (object, session) := (g.object.release fs.spied).run g.session
  { g with object, session, guards := g.guards.eraseIdx n }

def dispose : Governed σ :=
  let (object, session) := (g.object.dispose fs.spied).run g.session
  { g with object, session }

/-- The owner drops the object, which disposes of it. -/
def drop : Governed σ := { g.dispose fs with dropped := true }

/-- What is recorded of an object does not bear on it. -/
theorem steps_unspied :
    (g.object.borrow fs).run g.session.unspied =
        (((g.borrow fs).1, (g.borrow fs).2.object), (g.borrow fs).2.session.unspied) ∧
      (∀ n, (g.object.release fs).run g.session.unspied =
        ((g.dropGuard fs n).object, (g.dropGuard fs n).session.unspied)) ∧
      (g.object.dispose fs).run g.session.unspied =
        ((g.dispose fs).object, (g.dispose fs).session.unspied) :=
  ⟨Mirrors.objectBorrow fs g.object g.session,
    fun _ => Mirrors.objectRelease fs g.object g.session,
    Mirrors.objectDispose fs g.object g.session⟩

/-- What may come of an object. Guards keep it borrowed, so its owner drops it
only when none is left; of what else the host does only the record matters. -/
inductive Reaches : Governed σ → Prop
  | made {typeName : String} {pointer : Nat} {s : Session (Spied σ)} : s.core.record = [] →
    Reaches { object := { typeName, pointer }, session := s }
  | borrow {g : Governed σ} : Reaches g → g.dropped = false → Reaches (g.borrow fs).2
  | dropGuard {g : Governed σ} {n : Nat} : Reaches g → n < g.guards.length →
    Reaches (g.dropGuard fs n)
  | dispose {g : Governed σ} : Reaches g → g.dropped = false → Reaches (g.dispose fs)
  | drop {g : Governed σ} : Reaches g → g.dropped = false → g.guards = [] → Reaches (g.drop fs)
  | elsewhere {g : Governed σ} {s : Session (Spied σ)} : Reaches g →
    s.core.record = g.session.core.record → Reaches { g with session := s }

/-- What the counter, the flag and the record of an object say. -/
structure Balanced (g : Governed σ) : Prop where
  counter : g.object.callCounter = g.guards.length - if g.object.destroyed then 1 else 0
  limit : g.object.callCounter ≤ Object.maxBorrows
  frees : g.session.frees = if g.object.destroyed = true ∧ g.guards = [] then 1 else 0
  dropped : g.dropped = true → g.object.destroyed = true ∧ g.guards = []

variable {fs g}

theorem Balanced.counter_ge (h : g.Balanced) : -1 ≤ g.object.callCounter := by
  have hcounter := h.counter
  split at hcounter <;> omega

theorem Balanced.destroyed (h : g.Balanced) (hreleased : g.object.callCounter = -1) :
    g.object.destroyed = true := by
  by_contra hflag
  have hcounter := h.counter
  rw [if_neg hflag] at hcounter
  omega

/-- What a borrow does to an object that is balanced. -/
theorem Balanced.borrow_cases (fs : ObjectFunctions σ) (h : g.Balanced) :
    (g.borrow fs).2.session.frees = g.session.frees ∧ (g.borrow fs).2.dropped = g.dropped ∧
    (g.object.destroyed = false ∧ g.object.callCounter < Object.maxBorrows ∧
        Object.Lends fs g.object g.session.core.core ∧
        (∃ pointer, (g.borrow fs).1 = .ok pointer ∧
          (g.borrow fs).2.guards = pointer :: g.guards ∧
          (g.borrow fs).2.object = { g.object with callCounter := g.object.callCounter + 1 }) ∨
      ¬ (g.object.destroyed = false ∧ g.object.callCounter < Object.maxBorrows ∧
        Object.Lends fs g.object g.session.core.core) ∧
        ∃ fault, (g.borrow fs).1 = .error fault ∧ (g.borrow fs).2.guards = g.guards ∧
          (g.borrow fs).2.object = g.object) := by
  have hlt : g.object.callCounter ≠ Object.maxBorrows ↔
      g.object.callCounter < Object.maxBorrows := by
    have hlimit := h.limit
    omega
  obtain ⟨answer, after, s', hrun, hfrees, hanswer⟩ :=
    g.object.borrow_run fs g.session h.counter_ge h.destroyed
  rw [hlt] at hanswer
  simp only [borrow, hrun]
  refine ⟨hfrees, trivial, ?_⟩
  obtain ⟨hflag, hlimit, hlends, rfl, rfl⟩ | ⟨hnot, ⟨fault, rfl⟩, rfl⟩ := hanswer
  · exact .inl ⟨hflag, hlimit, hlends, _, rfl, rfl, rfl⟩
  · exact .inr ⟨hnot, fault, rfl, rfl, rfl⟩

theorem Balanced.borrow (h : g.Balanced) (hdropped : g.dropped = false) :
    (g.borrow fs).2.Balanced := by
  obtain ⟨hfrees, hkept, ⟨hflag, hlt, _, pointer, _, hguards, hobject⟩ |
    ⟨_, fault, _, hguards, hobject⟩⟩ := h.borrow_cases fs
  · have hcounter := h.counter
    have hnone := h.frees
    simp only [hflag, Bool.false_eq_true, if_false, false_and] at hcounter hnone
    constructor
    · rw [hobject, hguards]
      simp only [hflag, Bool.false_eq_true, if_false, List.length_cons]
      push_cast
      omega
    · rw [hobject]
      exact Int.add_one_le_of_lt hlt
    · rw [hfrees, hguards, hnone]
      simp
    · rw [hkept, hdropped]
      exact nofun
  · constructor
    · rw [hobject, hguards]
      exact h.counter
    · rw [hobject]
      exact h.limit
    · rw [hfrees, hobject, hguards]
      exact h.frees
    · rw [hkept, hdropped]
      exact nofun

theorem Balanced.dropGuard (h : g.Balanced) {n : Nat} (hn : n < g.guards.length) :
    (g.dropGuard fs n).Balanced := by
  obtain ⟨s', hrun, hfrees⟩ := g.object.release_run fs g.session
  have hlength := List.length_eraseIdx_of_lt hn
  have hcounter := h.counter
  have hlimit := h.limit
  have hnone : g.session.frees = 0 := by
    have hguards : g.guards ≠ [] := List.ne_nil_of_length_pos (by omega)
    rw [h.frees, if_neg fun hand => hguards hand.2]
  have hlast : g.guards.eraseIdx n = [] ↔ g.guards.length = 1 := by
    rw [← List.length_eq_zero_iff, hlength]
    omega
  simp only [Governed.dropGuard, hrun]
  constructor
  · dsimp only
    rw [hcounter, hlength]
    push_cast [Nat.one_le_of_lt hn]
    omega
  · dsimp only
    omega
  · -- The counter is zero exactly if this is the last guard of a disposed object.
    have hzero : g.object.callCounter = 0 ↔ g.object.destroyed = true ∧ g.guards.length = 1 := by
      rw [hcounter]
      cases g.object.destroyed with
      | true => simp only [if_true, true_and]; omega
      | false => simp only [Bool.false_eq_true, if_false, false_and, iff_false]; omega
    simp only [hlast, hfrees, hnone, hzero, Nat.zero_add]
  · intro hdropped
    have hguards := (h.dropped hdropped).2
    simp [hguards] at hn

theorem Balanced.dispose (fs : ObjectFunctions σ) (h : g.Balanced) : (g.dispose fs).Balanced := by
  obtain ⟨s', hrun, hfrees⟩ := g.object.dispose_run fs g.session
  have hcounter := h.counter
  have hlimit := h.limit
  have hbefore := h.frees
  simp only [Governed.dispose, hrun]
  constructor
  · dsimp only
    rw [hcounter]
    cases g.object.destroyed <;> simp
  · dsimp only
    split <;> omega
  · simp only [hfrees, hbefore, hcounter]
    cases g.object.destroyed with
    | true => simp
    | false => simp [List.length_eq_zero_iff]
  · intro hdropped
    exact ⟨rfl, (h.dropped hdropped).2⟩

theorem dispose_destroyed : (g.dispose fs).object.destroyed = true := by
  obtain ⟨s', hrun, _⟩ := g.object.dispose_run fs g.session
  simp only [dispose, hrun]

theorem Reaches.balanced (h : Reaches fs g) : g.Balanced := by
  induction h with
  | made hrecord =>
    constructor
    · rfl
    · simp [Object.maxBorrows]
    · simp [Session.frees, hrecord]
    · exact nofun
  | borrow _ hdropped ih => exact ih.borrow hdropped
  | dropGuard _ hn ih => exact ih.dropGuard hn
  | dispose _ _ ih => exact ih.dispose fs
  | drop _ _ hguards ih =>
    have hdisposed := ih.dispose fs
    refine ⟨hdisposed.counter, hdisposed.limit, hdisposed.frees, fun _ => ⟨?_, hguards⟩⟩
    exact dispose_destroyed
  | elsewhere _ hrecord ih =>
    refine ⟨ih.counter, ih.limit, ?_, ih.dropped⟩
    have hbefore := ih.frees
    simp only [Session.frees] at hbefore ⊢
    rw [hrecord]
    exact hbefore

/-- The life of an object, at any moment of it. The counter is the number of live
guards, less one once the object is disposed of, and so at least minus one and
never beyond its limit. The core has been told to free the object once if it is
disposed of and has no guard, and not at all otherwise; so once in all, when the
owner has dropped it. A borrow succeeds exactly if the object is not disposed
of, the counter is below its limit and the core lends; it then makes a guard, and
else it changes neither the object nor its guards. It never frees. With functions that
keep no record the object does the same. -/
theorem object_lifetime (h : Reaches fs g) :
    g.object.callCounter = g.guards.length - (if g.object.destroyed then 1 else 0) ∧
    -1 ≤ g.object.callCounter ∧ g.object.callCounter ≤ Object.maxBorrows ∧
    g.session.frees = (if g.object.destroyed = true ∧ g.guards = [] then 1 else 0) ∧
    (g.dropped = true → g.session.frees = 1) ∧
    (g.borrow fs).2.session.frees = g.session.frees ∧
    ((∃ pointer, (g.borrow fs).1 = .ok pointer) ↔ g.object.destroyed = false ∧
      g.object.callCounter < Object.maxBorrows ∧
      Object.Lends fs g.object g.session.core.core) ∧
    (∀ pointer, (g.borrow fs).1 = .ok pointer → (g.borrow fs).2.guards = pointer :: g.guards ∧
      (g.borrow fs).2.object = { g.object with callCounter := g.object.callCounter + 1 }) ∧
    (∀ fault, (g.borrow fs).1 = .error fault →
      (g.borrow fs).2.guards = g.guards ∧ (g.borrow fs).2.object = g.object) ∧
    (g.object.borrow fs).run g.session.unspied =
      (((g.borrow fs).1, (g.borrow fs).2.object), (g.borrow fs).2.session.unspied) ∧
    (∀ n, (g.object.release fs).run g.session.unspied =
      ((g.dropGuard fs n).object, (g.dropGuard fs n).session.unspied)) ∧
    (g.object.dispose fs).run g.session.unspied =
      ((g.dispose fs).object, (g.dispose fs).session.unspied) := by
  have hg := h.balanced
  have hunspied := steps_unspied fs g
  have hdropped : g.dropped = true → g.session.frees = 1 := by
    intro hdropped
    rw [hg.frees, if_pos (hg.dropped hdropped)]
  obtain ⟨hfrees, _, ⟨hflag, hlt, hlends, pointer, hanswer, hguards, hobject⟩ |
    ⟨hnot, fault, hanswer, hguards, hobject⟩⟩ := hg.borrow_cases fs
  · refine ⟨hg.counter, hg.counter_ge, hg.limit, hg.frees, hdropped, hfrees, ?_, ?_, ?_,
      hunspied⟩
    · exact iff_of_true ⟨pointer, hanswer⟩ ⟨hflag, hlt, hlends⟩
    · intro other hother
      obtain rfl := Except.ok.inj (hanswer.symm.trans hother)
      exact ⟨hguards, hobject⟩
    · intro fault hfault
      exact nomatch hanswer.symm.trans hfault
  · refine ⟨hg.counter, hg.counter_ge, hg.limit, hg.frees, hdropped, hfrees, ?_, ?_, ?_,
      hunspied⟩
    · refine iff_of_false ?_ hnot
      rintro ⟨pointer, hpointer⟩
      exact nomatch hanswer.symm.trans hpointer
    · intro pointer hpointer
      exact nomatch hanswer.symm.trans hpointer
    · intro _ _
      exact ⟨hguards, hobject⟩

/-- Functions that hand out references of their own and fail to free. -/
def grudging : ObjectFunctions Unit where
  clone? := some fun pointer core => ({ value := pointer + 1 }, core)
  free _ core := ({ value := (), status := { code := ResultCode.unexpected.raw } }, core)

def room : Governed Unit where
  object := { typeName := "Room", pointer := 16 }
  session := { core := { core := () } }

/-- The room disposed of while two guards are alive, of which the first is dropped. -/
def disposed : Governed Unit :=
  (((room.borrow grudging).2.borrow grudging).2.dispose grudging).dropGuard grudging 1

theorem reaches_disposed : Reaches grudging disposed := by
  have hroom : Reaches grudging room := .made rfl
  have hborrowed : Reaches grudging ((room.borrow grudging).2.borrow grudging).2 :=
    (hroom.borrow rfl).borrow rfl
  exact (hborrowed.dispose rfl).dropGuard (by decide)

/-- It is freed when the other guard is dropped, and not again when its owner drops it. -/
theorem object_lifetime_disposed :
    Reaches grudging disposed ∧ disposed.session.frees = 0 ∧
      Reaches grudging ((disposed.dropGuard grudging 0).drop grudging) ∧
      ((disposed.dropGuard grudging 0).drop grudging).session.frees = 1 := by
  have hlast : Reaches grudging ((disposed.dropGuard grudging 0).drop grudging) :=
    (reaches_disposed.dropGuard (by decide)).drop rfl rfl
  have hguards : disposed.guards ≠ [] := by decide
  refine ⟨reaches_disposed, ?_, hlast, ?_⟩
  · obtain ⟨_, _, _, hfrees, _⟩ := object_lifetime reaches_disposed
    rw [hfrees, if_neg fun hand => hguards hand.2]
  · obtain ⟨_, _, _, _, hdropped, _⟩ := object_lifetime hlast
    exact hdropped rfl

end Governed
end CoreBridge.Host
