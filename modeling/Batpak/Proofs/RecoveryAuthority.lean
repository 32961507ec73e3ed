/-
Module: Batpak.Proofs.RecoveryAuthority
Purpose: Which promoted bytes the reconciliation refuses: exactly when an attempt with
  unauthorised output is answered by a canonical refusal.
Trusted boundary: none
Main exports: walk_refuses, neverBlesses_iff
-/
import Batpak.Bvisor.Recovery

namespace Batpak.Bvisor

variable {probe : RecoveryProbe} {artifact : ArtifactId} {view : RunView}

/-! ### Authority over promoted bytes -/

/-- The artifact was probed with promoted bytes, and the view holds no decision to promote
it. -/
def Unauthorised (view : RunView) (probe : RecoveryProbe) (artifact : ArtifactId) : Prop :=
  (∃ reality, probe.artifacts[artifact]? = some reality ∧ reality.promotedBytesPresent = true) ∧
    ∀ state, view.dispositions[artifact]? = some state → state.decided ≠ some .promote

/-- What the walk over the dispositions sees of it: the view has a disposition of the
artifact, and either no decision, or another one that no failure has settled. -/
def Caught (view : RunView) (probe : RecoveryProbe) (artifact : ArtifactId) : Prop :=
  Unauthorised view probe artifact ∧
    ∃ state, view.dispositions[artifact]? = some state ∧
      (state.decided = none ∨ state.failed = false)

/-- Output without authority is refused, and an attempt is completed or finished only under a
durable report that is not torn. -/
structure NeverBlesses (view : RunView) (probe : RecoveryProbe) : Prop where
  refused : view.started = true → (∃ artifact, Unauthorised view probe artifact) →
    ∃ reason, reconcile view probe = .canonicalRefusal reason
  sealed : reconcile view probe = .completed ∨
      (∃ fixes, reconcile view probe = .finishDisposition fixes) →
    view.reported = true ∧ probe.tornReport = false

theorem forArtifact_promoted :
    (probe.forArtifact artifact).promotedBytesPresent = true ↔
      ∃ reality, probe.artifacts[artifact]? = some reality ∧
        reality.promotedBytesPresent = true := by
  unfold RecoveryProbe.forArtifact
  rw [Std.TreeMap.getD_eq_getD_getElem?]
  cases probe.artifacts[artifact]? with
  | none => simp
  | some reality => simp

theorem anyPromoted_of_unauthorised (h : Unauthorised view probe artifact) :
    probe.anyPromoted = true := by
  obtain ⟨⟨reality, hreality, hpromoted⟩, -⟩ := h
  unfold RecoveryProbe.anyPromoted
  rw [List.any_eq_true]
  exact ⟨(artifact, reality), Std.TreeMap.mem_toList_iff_getElem?_eq_some.mpr hreality, hpromoted⟩

/-! ### One disposition -/

/-- A disposition is refused exactly when its promoted bytes have no authority and no failure
hides them. -/
theorem reconcileDisposition_refuses {state : DispositionState} {reality : ArtifactReality} :
    (∃ reason, reconcileDisposition state reality = .refuse reason) ↔
      reality.promotedBytesPresent = true ∧ state.decided ≠ some .promote ∧
        (state.decided = none ∨ state.failed = false) := by
  unfold reconcileDisposition
  cases hpromoted : reality.promotedBytesPresent with
  | false =>
      rcases hdecided : state.decided with _ | action
      · simp
      · cases hfailed : state.failed with
        | true => simp
        | false => cases action <;> simp <;> split_ifs <;> simp
  | true =>
      rcases hdecided : state.decided with _ | action
      · simp
      · cases hfailed : state.failed with
        | true => simp
        | false => cases action <;> simp <;> split_ifs <;> simp

/-! ### The walk -/

/-- The walk refuses exactly when it meets a disposition that is refused; otherwise the attempt
is completed or finished. -/
theorem reconcileDispositions_refuses (probe : RecoveryProbe)
    (dispositions : List (ArtifactId × DispositionState)) (fixes : List ArtifactFix) :
    (∃ reason, reconcileDispositions probe dispositions fixes = .canonicalRefusal reason) ↔
      ∃ entry ∈ dispositions, ∃ reason,
        reconcileDisposition entry.2 (probe.forArtifact entry.1) = .refuse reason := by
  induction dispositions generalizing fixes with
  | nil =>
      unfold reconcileDispositions
      split_ifs <;> simp
  | cons entry rest ih =>
      obtain ⟨artifact, state⟩ := entry
      unfold reconcileDispositions
      cases houtcome : reconcileDisposition state (probe.forArtifact artifact) with
      | settled =>
          simp only [List.mem_cons, exists_eq_or_imp, houtcome, reduceCtorEq, exists_false,
            false_or]
          exact ih fixes
      | finish action =>
          simp only [List.mem_cons, exists_eq_or_imp, houtcome, reduceCtorEq, exists_false,
            false_or]
          exact ih _
      | refuse reason => simp [houtcome]

/-- In terms of the view: the walk refuses exactly when it catches an artifact. -/
theorem walk_refuses (view : RunView) (probe : RecoveryProbe) :
    (∃ reason, reconcileDispositions probe view.dispositions.toList [] =
        .canonicalRefusal reason) ↔
      ∃ artifact, Caught view probe artifact := by
  rw [reconcileDispositions_refuses]
  simp only [reconcileDisposition_refuses, forArtifact_promoted]
  constructor
  · rintro ⟨⟨artifact, state⟩, hmem, hpromoted, hdecided, hseen⟩
    have hstate := Std.TreeMap.mem_toList_iff_getElem?_eq_some.mp hmem
    refine ⟨artifact, ⟨hpromoted, ?_⟩, state, hstate, hseen⟩
    intro other hother
    rw [hstate] at hother
    cases hother
    exact hdecided
  · rintro ⟨artifact, ⟨hpromoted, hdecided⟩, state, hstate, hseen⟩
    exact ⟨(artifact, state), Std.TreeMap.mem_toList_iff_getElem?_eq_some.mpr hstate, hpromoted,
      hdecided state hstate, hseen⟩

/-! ### The decision -/

theorem reconcile_sealed
    (h : reconcile view probe = .completed ∨
      ∃ fixes, reconcile view probe = .finishDisposition fixes) :
    view.reported = true ∧ probe.tornReport = false := by
  unfold reconcile at h
  cases hstarted : view.started with
  | false => simp [hstarted] at h
  | true =>
      cases htorn : probe.tornReport with
      | true => simp [hstarted, htorn] at h
      | false =>
          cases hreported : view.reported with
          | true => exact ⟨rfl, rfl⟩
          | false =>
              simp only [hstarted, htorn, hreported] at h
              cases hany : probe.anyPromoted <;> simp [hany] at h

/-- Without a report, or with a torn one, every unauthorised output is refused. -/
theorem reconcile_unsealed (hstarted : view.started = true) (h : Unauthorised view probe artifact)
    (hunsealed : ¬(view.reported = true ∧ probe.tornReport = false)) :
    ∃ reason, reconcile view probe = .canonicalRefusal reason := by
  unfold reconcile
  cases htorn : probe.tornReport with
  | true => simp [hstarted]
  | false =>
      cases hreported : view.reported with
      | true => exact absurd ⟨hreported, htorn⟩ hunsealed
      | false => simp [hstarted, anyPromoted_of_unauthorised h]

theorem reconcile_reported (hstarted : view.started = true) (hreported : view.reported = true)
    (htorn : probe.tornReport = false) :
    reconcile view probe = reconcileDispositions probe view.dispositions.toList [] := by
  simp [reconcile, hstarted, hreported, htorn]

/-- Unauthorised output is never blessed exactly when, of every started attempt with a durable
report, the walk sees some of it: an artifact without any disposition, and one whose other
decision was followed by a failure, are passed over. -/
theorem neverBlesses_iff (attempt : AttemptId) (planId : BoundaryPlanHash)
    (events : List BoundaryEvent) (probe : RecoveryProbe) :
    NeverBlesses (RunView.fold attempt planId events) probe ↔
      ((RunView.fold attempt planId events).started = true →
        (RunView.fold attempt planId events).reported = true → probe.tornReport = false →
        (∃ artifact, Unauthorised (RunView.fold attempt planId events) probe artifact) →
        ∃ artifact, Caught (RunView.fold attempt planId events) probe artifact) := by
  generalize RunView.fold attempt planId events = view
  constructor
  · intro hnever hstarted hreported htorn hunauthorised
    have hrefused := hnever.refused hstarted hunauthorised
    rw [reconcile_reported hstarted hreported htorn] at hrefused
    exact (walk_refuses view probe).mp hrefused
  · intro hcaught
    refine ⟨?_, reconcile_sealed⟩
    intro hstarted hunauthorised
    by_cases hsealed : view.reported = true ∧ probe.tornReport = false
    · rw [reconcile_reported hstarted hsealed.1 hsealed.2]
      exact (walk_refuses view probe).mpr (hcaught hstarted hsealed.1 hsealed.2 hunauthorised)
    · obtain ⟨artifact, hartifact⟩ := hunauthorised
      exact reconcile_unsealed hstarted hartifact hsealed

/-- The bytes of artifact 9 are promoted. -/
def promotedNine : RecoveryProbe where
  artifacts := ({} : Std.TreeMap ArtifactId ArtifactReality compare).insert 9 ⟨false, true⟩

/-- The decision to discard artifact 9 failed. -/
def failedDiscard : List BoundaryEvent :=
  [.started, .report, .disposition 9 (.decided .discard),
    .disposition 9 (.failed "unlink failed")]

theorem not_neverBlesses_of_completed (hstarted : view.started = true)
    (h : Unauthorised view probe artifact) (hcompleted : reconcile view probe = .completed) :
    ¬NeverBlesses view probe := by
  intro hnever
  obtain ⟨reason, hreason⟩ := hnever.refused hstarted ⟨artifact, h⟩
  rw [hcompleted] at hreason
  cases hreason

theorem unauthorised_of_bind
    (h : view.dispositions[(9 : ArtifactId)]?.bind DispositionState.decided ≠ some .promote) :
    Unauthorised view promotedNine 9 := by
  refine ⟨⟨⟨false, true⟩, by decide +kernel, rfl⟩, ?_⟩
  intro state hstate
  rw [hstate] at h
  exact h

/-- Promoted bytes of a reported attempt: without any disposition, and after a decision to
discard that failed. Both attempts are completed. -/
theorem promoted_nine_blessed :
    (Unauthorised (RunView.fold 1 2 [.started, .report]) promotedNine 9 ∧
      reconcile (RunView.fold 1 2 [.started, .report]) promotedNine = .completed ∧
      ¬NeverBlesses (RunView.fold 1 2 [.started, .report]) promotedNine) ∧
    Unauthorised (RunView.fold 1 2 failedDiscard) promotedNine 9 ∧
      reconcile (RunView.fold 1 2 failedDiscard) promotedNine = .completed ∧
      ¬NeverBlesses (RunView.fold 1 2 failedDiscard) promotedNine := by
  have hsilent : Unauthorised (RunView.fold 1 2 [.started, .report]) promotedNine 9 :=
    unauthorised_of_bind (by decide +kernel)
  have hfailed : Unauthorised (RunView.fold 1 2 failedDiscard) promotedNine 9 :=
    unauthorised_of_bind (by decide +kernel)
  exact ⟨⟨hsilent, by decide +kernel, not_neverBlesses_of_completed rfl hsilent (by decide +kernel)⟩,
    hfailed, by decide +kernel, not_neverBlesses_of_completed rfl hfailed (by decide +kernel)⟩

end Batpak.Bvisor
