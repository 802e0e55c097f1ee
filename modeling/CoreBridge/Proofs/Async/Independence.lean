import CoreBridge.Proofs.Async.Members

/-!
# Calls that run together

Calls that share a core and a host (`Ensemble`) are acted on in any order. Each has a
footprint apart from those of the others, and an act on one leaves the others as they
stand (`Standing.act`). What a call comes to is thus told by the acts on it alone
(`Standing.run`), and two runs in which these are the same agree about it. They need not have
given the same handle to its task, and the handle is named where the outcome does not
have the shape that the call collects.
-/
namespace CoreBridge.Host

open CoreBridge.Core CoreBridge.Task

variable {ε : Type}

/-! ## What an outcome is collected as -/

/-- The fault of a call whose task ended with a value of another shape. -/
def misfit (flavour : Flavour) (task : Nat) (value : TaskValue) : Fault :=
  .nativePanic s!"task {task} completed as {flavour.name} but produced {value.describe}"

/-- A call collects the same of an outcome under each handle, but for the text that tells
of a value of another shape. -/
theorem Job.answer_cases (job : Job ε) (outcome : Option TaskResult) :
    (∀ task task', job.answer task outcome = job.answer task' outcome) ∨
      ∃ value, value.fits job.flavour = false ∧
        ∀ task, job.answer task outcome = .error (.fault (misfit job.flavour task value)) := by
  rcases outcome with _ | ((bytes | message) | value)
  · exact .inl fun _ _ => rfl
  · exact .inl fun _ _ => rfl
  · exact .inl fun _ _ => rfl
  · cases hfits : value.fits job.flavour with
    | true =>
      left
      intro task task'
      simp only [answer, Store.Collected.ofOutcome, hfits, if_true]
    | false =>
      refine .inr ⟨value, hfits, fun task => ?_⟩
      simp only [answer, Store.Collected.ofOutcome, hfits, Bool.false_eq_true, if_false, learnt]
      simp only [String.append_assoc]
      rw [textFault_append (by decide)]
      simp only [misfit, String.append_assoc]

namespace Member

/-- What the call ended with. -/
def result? (x : Member ε) : Option (Except (CallError ε) TaskValue) :=
  match x.call with
  | .ended result => some (result.map Collection.content)
  | _ => none

/-- Whether a call came to the same in two runs, but for the handle that a text names. -/
structure Agrees (flavour : Flavour) (x y : Member ε) : Prop where
  report : x.report = y.report
  result : x.result? = y.result? ∨
    ∃ task task' value, x.task = some task ∧ y.task = some task' ∧
      value.fits flavour = false ∧
      x.result? = some (.error (.fault (misfit flavour task value))) ∧
      y.result? = some (.error (.fault (misfit flavour task' value)))

variable {job : Job ε} {s s' : Session State} {x y : Member ε} {solo : Solo}

/-- How a call stands says what it has ended with. -/
theorem Stands.result?_eq (h : x.Stands job s solo) :
    match solo with
    | .finished _ outcome => ∃ task, x.task = some task ∧ x.result? = some (job.answer task outcome)
    | .refused => ∃ error, job.refusal = .error error ∧ x.result? = some (.error error)
    | _ => x.result? = none := by
  cases h with
  | unstarted => rfl
  | driving hstart hdrives hrest hreport =>
    have htold := hdrives.told
    cases htold with
    | polling => rfl
    | waiting => rfl
    | finished => exact absurd rfl (hrest _)
  | ended hgone hresult => exact ⟨_, rfl, congrArg some hresult⟩
  | refused herror => exact ⟨_, herror, rfl⟩
  | dropped => rfl

theorem Stands.report_eq (h : x.Stands job s solo) : x.report = solo.report := by
  cases h with
  | driving _ _ _ hreport => exact hreport.symm
  | _ => rfl

/-- A call that stands as is told of another has come to the same. -/
theorem Stands.agrees (hx : x.Stands job s solo) (hy : y.Stands job s' solo) :
    x.Agrees job.flavour y where
  report := hx.report_eq.trans hy.report_eq.symm
  result := by
    have hxr := hx.result?_eq
    have hyr := hy.result?_eq
    cases solo with
    | finished report outcome =>
      obtain ⟨task, htask, hxr⟩ := hxr
      obtain ⟨task', htask', hyr⟩ := hyr
      rw [hxr, hyr]
      obtain hsame | ⟨value, hfits, hmisfit⟩ := job.answer_cases outcome
      · exact .inl (congrArg some (hsame task task'))
      · exact .inr ⟨task, task', value, htask, htask', hfits, congrArg some (hmisfit task),
          congrArg some (hmisfit task')⟩
    | refused =>
      obtain ⟨error, herror, hxr⟩ := hxr
      obtain ⟨error', herror', hyr⟩ := hyr
      obtain rfl := Except.error.inj (herror.symm.trans herror')
      exact .inl (hxr.trans hyr.symm)
    | _ => exact .inl (hxr.trans hyr.symm)

end Member

/-! ## Runs -/

/-- Calls that share a core and a host. -/
structure Ensemble (ε : Type) where
  session : Session State
  member : Nat → Member ε := fun _ => {}

/-- The acts of a schedule that are on the call `n`. -/
def actsOn (n : Nat) (schedule : List (Nat × Act)) : List (Nat × Act) :=
  schedule.filter fun step => step.1 = n

namespace Ensemble

variable (jobs : Nat → Job ε)

/-- Does this with one of the calls. -/
def act (e : Ensemble ε) (step : Nat × Act) : Ensemble ε :=
  let acted := ((e.member step.1).act (jobs step.1) step.1 step.2).run e.session
  { session := acted.2, member := Function.update e.member step.1 acted.1 }

def run (e : Ensemble ε) (schedule : List (Nat × Act)) : Ensemble ε := schedule.foldl (act jobs) e

/-- The calls have footprints apart from each other, and stand as is told of each alone. -/
structure Standing (e : Ensemble ε) (solo : Nat → Solo) : Prop where
  orderly : e.session.Orderly
  within : ∀ n, (e.member n).footprint.Within e.session
  apart : ∀ n m, n ≠ m → (e.member n).footprint.Apart (e.member m).footprint
  stands : ∀ n, (e.member n).Stands (jobs n) e.session (solo n)

variable {jobs} {e : Ensemble ε} {solo : Nat → Solo}

theorem standing_initial {s : Session State} (hs : s.Orderly) :
    Standing jobs { session := s } fun _ => .unstarted where
  orderly := hs
  within _ := Footprint.within_empty s
  apart _ _ _ := Footprint.apart_empty _
  stands _ := .unstarted

/-- An act on one call is told of it, and nothing of the others. -/
theorem Standing.act (h : Standing jobs e solo)
    (hprivate : ∀ n future, (jobs n).start = .returned future → future.IsPrivate)
    (n : Nat) (a : Act) :
    Standing jobs (e.act jobs (n, a)) (Function.update solo n ((solo n).act (jobs n) a)) := by
  have hcomes := (h.stands n).act h.orderly (h.within n) (hprivate n) n a
  unfold Ensemble.act
  generalize ((e.member n).act (jobs n) n a).run e.session = acted at hcomes ⊢
  obtain ⟨next, s'⟩ := acted
  obtain ⟨hstands, hmoves⟩ := hcomes
  have hgrown {m : Nat} (hm : m ≠ n) : next.footprint.Apart (e.member m).footprint :=
    (h.apart n m hm.symm).grows hmoves.grows (h.within m)
  refine ⟨hmoves.orderly, fun m => ?_, fun m k hmk => ?_, fun m => ?_⟩
  · obtain rfl | hm := eq_or_ne m n
    · simpa using hmoves.within
    · simpa [hm] using hmoves.mono (h.within m)
  · obtain rfl | hm := eq_or_ne m n
    · simpa [hmk.symm] using hgrown hmk.symm
    · obtain rfl | hk := eq_or_ne k n
      · simpa [hm] using (hgrown hm).symm
      · simpa [hm, hk] using h.apart m k hmk
  · obtain rfl | hm := eq_or_ne m n
    · simpa using hstands
    · simpa [hm] using (h.stands m).spares hmoves.orderly (hmoves.mono (h.within m))
        (hmoves.spares _ (h.within m) (h.apart n m hm.symm))

/-- What is told of a call after a run are the acts on it. -/
theorem Standing.run (h : Standing jobs e solo)
    (hprivate : ∀ n future, (jobs n).start = .returned future → future.IsPrivate)
    (schedule : List (Nat × Act)) :
    Standing jobs (e.run jobs schedule) fun n =>
      (actsOn n schedule).foldl (fun solo step => solo.act (jobs n) step.2) (solo n) := by
  induction schedule generalizing e solo with
  | nil => exact h
  | cons step schedule ih =>
    obtain ⟨n, a⟩ := step
    have hsolo (m : Nat) : (actsOn m ((n, a) :: schedule)).foldl
        (fun solo step => solo.act (jobs m) step.2) (solo m) = (actsOn m schedule).foldl
        (fun solo step => solo.act (jobs m) step.2)
        (Function.update solo n ((solo n).act (jobs n) a) m) := by
      obtain rfl | hm := eq_or_ne m n
      · simp [actsOn]
      · simp [actsOn, hm, hm.symm]
    simp only [hsolo]
    exact ih (h.act hprivate n a)

theorem actsOn_actsOn (n : Nat) (schedule : List (Nat × Act)) :
    actsOn n (actsOn n schedule) = actsOn n schedule := by
  simp [actsOn]

/-- What a call comes to among others that have private futures, as it has, is what it
comes to alone in the same session or in another. -/
theorem calls_independent
    (hprivate : ∀ n future, (jobs n).start = .returned future → future.IsPrivate)
    {start other : Session State} (hstart : start.Orderly) (hother : other.Orderly)
    (schedule : List (Nat × Act)) (n : Nat) :
    ((run jobs { session := start } schedule).member n).Agrees (jobs n).flavour
      ((run jobs { session := other } (actsOn n schedule)).member n) := by
  have hall := ((standing_initial hstart).run hprivate schedule).stands n
  have halone := ((standing_initial hother).run hprivate (actsOn n schedule)).stands n
  rw [actsOn_actsOn] at halone
  exact hall.agrees halone

/-- A call that has to be woken, and one that collects another shape than it is given. -/
def tandem : Nat → Job Unit
  | 0 =>
    { start := .returned
        { onPoll := fun n => { ending := if n = 0 then .pending else .ready (.ok .void) }
          onDrop := fun _ => [.own 0] }
      flavour := .void
      decode := fun _ => .ok () }
  | _ =>
    { start := .returned (.ready (.ok (.word 5)))
      flavour := .void
      decode := fun _ => .ok () }

theorem private_tandem (n : Nat) (future : Future TaskResult)
    (hstart : (tandem n).start = .returned future) : future.IsPrivate := by
  cases n with
  | zero =>
    obtain rfl := Outcome.returned.inj hstart
    exact ⟨(fun _ _ hmem => by cases hmem), fun _ _ hmem => ⟨0, List.mem_singleton.1 hmem⟩⟩
  | succ n =>
    obtain rfl := Outcome.returned.inj hstart
    exact ⟨(fun _ _ hmem => by cases hmem), (fun _ _ hmem => by cases hmem)⟩

def tandemSchedule : List (Nat × Act) := [(0, .poll), (1, .poll), (0, .wake 0), (0, .poll)]

theorem calls_independent_tandem :
    (∀ n future, (tandem n).start = .returned future → future.IsPrivate) ∧
      Session.Orderly { core := {} } ∧
      (∀ n, ((run tandem { session := { core := {} } } tandemSchedule).member n).Agrees
        (tandem n).flavour
        ((run tandem { session := { core := {} } } (actsOn n tandemSchedule)).member n)) ∧
      ((run tandem { session := { core := {} } } tandemSchedule).member 0).result? =
        some (.ok .void) ∧
      ((run tandem { session := { core := {} } } tandemSchedule).member 0).report = ⟨2, 1⟩ := by
  have hstart : Session.Orderly { core := {} } := Session.orderly_initial {} rfl {}
  exact ⟨private_tandem, hstart, calls_independent private_tandem hstart hstart tandemSchedule,
    by decide +kernel, by decide +kernel⟩

/-- The handle that the task is given shows in the result of the second call. -/
theorem handle_shown_tandem :
    (∀ n future, (tandem n).start = .returned future → future.IsPrivate) ∧
      Session.Orderly { core := {} } ∧
      ((run tandem { session := { core := {} } } tandemSchedule).member 1).result? =
        some (.error (.fault (misfit .void 2 (.word 5)))) ∧
      ((run tandem { session := { core := {} } } (actsOn 1 tandemSchedule)).member 1).result? =
        some (.error (.fault (misfit .void 1 (.word 5)))) ∧
      misfit .void 2 (.word 5) ≠ misfit .void 1 (.word 5) :=
  ⟨private_tandem, Session.orderly_initial {} rfl {}, by decide +kernel, by decide +kernel,
    by decide +kernel⟩

end Ensemble
end CoreBridge.Host
