/-
Module: Batpak.Proofs.VisibilityAgreement
Purpose: The global track and the lane tracks show the same events: over every life of a
  store in which nothing is appended or compacted across a fence, and not otherwise.
Trusted boundary: none
Main exports: TracksAgree, tracks_agree_of_guarded_life
-/
import Batpak.Proofs.FenceLifecycle

namespace Batpak.Store

open Batpak.Util

/-- The two tracks of a gate agree on an entry. -/
def SameOnBothTracks (g : SequenceGate) (e : IndexEntry) : Prop :=
  g.isVisible e.globalSequence = true ↔ g.isVisibleOnLane e.globalSequence e.dagLane = true

instance (g : SequenceGate) (e : IndexEntry) : Decidable (SameOnBothTracks g e) :=
  inferInstanceAs (Decidable (_ ↔ _))

/-- Both tracks agree on every indexed entry, and on the entries a command in progress has
inserted and not yet published: they have sequences the allocator had not handed out. -/
structure TracksAgree (core : WriterCore) : Prop where
  indexed : ∀ e ∈ core.index.inserted, SameOnBothTracks core.index.gate e
  inProgress : ∀ e : IndexEntry, core.index.globalSequence ≤ e.globalSequence →
    SameOnBothTracks core.index.gate e

theorem Gated.same_of_mem {v : FenceView} (h : Gated v) {e : IndexEntry} (he : e ∈ v.entries) :
    SameOnBothTracks v.gate e := by
  unfold SameOnBothTracks
  by_cases hcancelled : Cancelled v.gate e
  · obtain ⟨hglobal, hlane⟩ := not_shown_of_cancelled hcancelled
    rw [hglobal, hlane]
  · by_cases hpending : v.Pending e
    · obtain ⟨hglobal, hlane⟩ := h.not_shown_of_pending he hpending
      rw [hglobal, hlane]
    · rcases h.settled e he hpending with hreleased | hc
      · obtain ⟨hglobal, hlane⟩ := h.shown hreleased hcancelled
        rw [hglobal, hlane]
      · exact absurd hc hcancelled

theorem Gated.same_of_unallocated {v : FenceView} (h : Gated v) {e : IndexEntry}
    (he : v.gate.allocated ≤ e.globalSequence) : SameOnBothTracks v.gate e := by
  have hglobal : ¬e.globalSequence < v.gate.visible := by
    apply Nat.not_lt.mpr
    exact Nat.le_trans h.visible he
  have hlane : ¬e.globalSequence < v.gate.laneVisible e.dagLane := by
    apply Nat.not_lt.mpr
    exact Nat.le_trans (h.laneVisible e.dagLane) he
  simp [SameOnBothTracks, SequenceGate.isVisible, SequenceGate.isVisibleOnLane, hglobal, hlane]

theorem Gated.tracksAgree {core : WriterCore} (h : Gated core.fenceView) : TracksAgree core where
  indexed _ he := h.same_of_mem he
  inProgress _ he := h.same_of_unallocated he

/-- In every life of a store in which unfenced appends run while no fence holds events back
and compactions while the writer has no fence open, both tracks agree at all times. -/
theorem tracks_agree_of_guarded_life (cfg : LifecycleConfig) (rt : Runtime)
    (steps : List LifecycleStep)
    (h : Guarded (lifecycleStep cfg rt) fenceGuards.Allows .blank steps) :
    ∀ core, (run (lifecycleStep cfg rt) .blank steps).core? = some core → TracksAgree core := by
  have hfinal := run_invariant (gatedLife cfg rt).lifecycleStep steps .blank fencedDisk_blank h
  intro core hcore
  generalize run (lifecycleStep cfg rt) .blank steps = st at hfinal hcore
  cases st with
  | opened core' side =>
      cases hcore
      exact hfinal.1.view.tracksAgree
  | closed segments ranges side fences => cases hcore

/-- An entry is shown exactly when it is neither held by the open fence nor cancelled. -/
theorem Gated.shown_iff {v : FenceView} (h : Gated v) {e : IndexEntry} (he : e ∈ v.entries) :
    (v.gate.isVisible e.globalSequence = true ↔ ¬v.Pending e ∧ ¬Cancelled v.gate e) ∧
      (v.gate.isVisibleOnLane e.globalSequence e.dagLane = true ↔
        ¬v.Pending e ∧ ¬Cancelled v.gate e) := by
  by_cases hcancelled : Cancelled v.gate e
  · simp [not_shown_of_cancelled hcancelled, hcancelled]
  · by_cases hpending : v.Pending e
    · simp [h.not_shown_of_pending he hpending, hpending]
    · rcases h.settled e he hpending with hreleased | hc
      · simp [h.shown hreleased hcancelled, hpending, hcancelled]
      · exact absurd hc hcancelled

/-- In those lives, whatever crashes and reopens, an event is shown on both tracks unless it was
written under the fence that is open or is cancelled, and then on neither. -/
theorem shown_iff_of_guarded_life (cfg : LifecycleConfig) (rt : Runtime)
    (steps : List LifecycleStep)
    (h : Guarded (lifecycleStep cfg rt) fenceGuards.Allows .blank steps) {core : WriterCore}
    (hcore : (run (lifecycleStep cfg rt) .blank steps).core? = some core) {e : IndexEntry}
    (he : e ∈ core.index.inserted) :
    (core.index.gate.isVisible e.globalSequence = true ↔
      ¬core.fenceView.Pending e ∧ ¬Cancelled core.index.gate e) ∧
      (core.index.gate.isVisibleOnLane e.globalSequence e.dagLane = true ↔
        ¬core.fenceView.Pending e ∧ ¬Cancelled core.index.gate e) := by
  have hfinal := run_invariant (gatedLife cfg rt).lifecycleStep steps .blank fencedDisk_blank h
  generalize run (lifecycleStep cfg rt) .blank steps = st at hfinal hcore
  cases st with
  | opened core' side =>
      cases hcore
      exact hfinal.1.view.shown_iff he
  | closed segments ranges side fences => cases hcore

/-! ### Across a fence -/

instance (st : StoreState) (step : LifecycleStep) : Decidable (fenceGuards.Allows st step) :=
  match st, step with
  | .opened core _, .writer step =>
      inferInstanceAs (Decidable (step.unfenced = true → HoldsNothing core))
  | .opened core _, .compact _ _ flt =>
      decidable_of_iff
        ((syncOutcome { Faults.none with sync := flt.sync } core).2.fenceLedger.isNone = true)
        Option.isNone_iff_eq_none
  | .opened .., .close _ | .opened .., .crash .. | .opened .., .beginFence | .opened .., .reopen _
  | .closed .., .reopen _ | .closed .., .beginFence | .closed .., .writer _
  | .closed .., .compact .. | .closed .., .close _ | .closed .., .crash .. =>
      inferInstanceAs (Decidable True)

/-- A fence is begun and one event is written under it. -/
def openFencedRun : List LifecycleStep :=
  [.reopen ⟨1, [], 0, .none⟩, .beginFence,
    .writer (.command .main ⟨.beginVisibilityFence 1 0, .none⟩),
    .writer (.command .main ⟨.fenceAppend 1 (plainRequest "a" 10 4) 1, .none⟩)]

/-- A batch to another lane. `submit_batch` asks for an open fence before it takes the gate
under which it sends, so that a batch asked about before the fence was begun can reach the
writer behind the fenced event. -/
def racingBatch : LifecycleStep :=
  .writer (.command .main ⟨.appendBatch 0 [{ plainItem "b" 11 4 with dagLane := 1 }] 2, .none⟩)

/-- The publish of the racing batch lifts the global bound over the fenced event, the bound
of the event's lane stays below it. -/
theorem racing_batch_splits_tracks :
    ¬∀ core, (run (lifecycleStep .small .unsigned) .blank
      (openFencedRun ++ [racingBatch])).core? = some core → TracksAgree core := by
  intro h
  have hindexed : ∀ core ∈ (run (lifecycleStep .small .unsigned) .blank
      (openFencedRun ++ [racingBatch])).core?, ∀ e ∈ core.index.inserted,
        SameOnBothTracks core.index.gate e := fun core hcore => (h core hcore).indexed
  revert hindexed
  decide +kernel

/-- A fence that commits, then the same batch, a compaction, a close and an open. -/
def settledFenceRun : List LifecycleStep :=
  openFencedRun ++ [.writer (.command .main ⟨.commitVisibilityFence 1 3, .none⟩), racingBatch,
    .compact 0 .merge .none, .close ⟨4, .none, false, false, false⟩, .reopen ⟨2, [], 0, .none⟩]

theorem settledFenceRun_shown :
    ∃ core, (run (lifecycleStep .small .unsigned) .blank settledFenceRun).core? = some core ∧
      ∀ e ∈ core.index.inserted, (core.index.gate.isVisible e.globalSequence = true ↔
        ¬core.fenceView.Pending e ∧ ¬Cancelled core.index.gate e) := by
  have h : Guarded (lifecycleStep .small .unsigned) fenceGuards.Allows .blank settledFenceRun := by
    decide +kernel
  have hopen : (run (lifecycleStep .small .unsigned) .blank settledFenceRun).core?.isSome := by
    decide +kernel
  obtain ⟨core, hcore⟩ := Option.isSome_iff_exists.mp hopen
  refine ⟨core, hcore, ?_⟩
  intro e he
  exact (shown_iff_of_guarded_life .small .unsigned settledFenceRun h hcore he).1

theorem settledFenceRun_tracks :
    Guarded (lifecycleStep .small .unsigned) fenceGuards.Allows .blank settledFenceRun ∧
      ∀ core, (run (lifecycleStep .small .unsigned) .blank settledFenceRun).core? = some core →
        TracksAgree core := by
  have h : Guarded (lifecycleStep .small .unsigned) fenceGuards.Allows .blank settledFenceRun := by
    decide +kernel
  exact ⟨h, tracks_agree_of_guarded_life .small .unsigned settledFenceRun h⟩

end Batpak.Store
