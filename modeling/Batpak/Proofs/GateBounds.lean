/-
Module: Batpak.Proofs.GateBounds
Purpose: The gate never shows more than was allocated, neither globally nor on a lane, in any
  state any life of a store reaches.
Trusted boundary: none
Main exports: boundedLife, bounded_of_life
-/
import Batpak.Proofs.BatchEffects
import Batpak.Proofs.LifecycleInvariant
import Batpak.Proofs.RestoredIndex
import Batpak.Util.Run

namespace Batpak.Store

open Batpak.Util

/-- Nothing beyond the allocator is visible. -/
structure Bounded (g : SequenceGate) : Prop where
  visible : g.visible ≤ g.allocated
  laneVisible : ∀ lane, g.laneVisible lane ≤ g.allocated

/-! ### What the gate does -/

theorem SequenceGate.installLanes_le {lanes : Nat → Nat} {points : List (Nat × Nat)}
    {bound lane : Nat} (hlane : lanes lane ≤ bound) (hpoints : ∀ p ∈ points, p.2 ≤ bound) :
    SequenceGate.installLanes lanes points lane ≤ bound := by
  induction points generalizing lanes with
  | nil => exact hlane
  | cons p rest ih =>
      change SequenceGate.installLanes (Function.update lanes p.1 p.2) rest lane ≤ bound
      apply ih
      · by_cases hl : lane = p.1
        · subst hl
          rw [Function.update_self]
          exact hpoints p List.mem_cons_self
        · rw [Function.update_of_ne hl]
          exact hlane
      · intro q hq
        exact hpoints q (List.mem_cons_of_mem _ hq)

namespace Bounded

variable {g g' : SequenceGate}

theorem reserve (h : Bounded g) (n : Nat) : Bounded (g.reserve n) where
  visible := Nat.le_trans h.visible (Nat.le_add_right _ _)
  laneVisible lane := Nat.le_trans (h.laneVisible lane) (Nat.le_add_right _ _)

theorem publishOnLanes (h : Bounded g) {upTo : Nat} {lanes : List (Nat × Nat)} {operation : String}
    (hok : g.publishOnLanes upTo lanes operation = .ok g') : Bounded g' := by
  have hlanes := SequenceGate.publishOnLanes_lane_ok hok
  obtain ⟨hupTo, -, rfl⟩ := SequenceGate.publishOnLanes_ok hok
  exact ⟨hupTo, fun lane => SequenceGate.installLanes_le (h.laneVisible lane)
    fun p hp => (hlanes p hp).2⟩

theorem noteFenceProgress (h : Bounded g) {token start stop : Nat}
    (hok : g.noteFenceProgress token start stop = .ok g') : Bounded g' := by
  unfold SequenceGate.noteFenceProgress at hok
  split at hok
  · cases hok
    exact ⟨h.visible, h.laneVisible⟩
  · cases hok

theorem closeFence (h : Bounded g) : Bounded g.closeFence :=
  ⟨h.visible, h.laneVisible⟩

theorem finishFenceOnLanes (h : Bounded g) {token : Nat} {publishTo : Option Nat}
    {lanes : List (Nat × Nat)} (hok : g.finishFenceOnLanes token publishTo lanes = .ok g') :
    Bounded g' := by
  unfold SequenceGate.finishFenceOnLanes at hok
  split at hok
  · split at hok
    · split at hok
      · rename_i hpublish
        cases hok
        exact (h.publishOnLanes hpublish).closeFence
      · cases hok
    · cases hok
      exact h.closeFence
  · cases hok

theorem cancelFence (h : Bounded g) {token : Nat} {points : List (Nat × Range)}
    (hok : g.cancelFence token points = .ok g') : Bounded g' := by
  unfold SequenceGate.cancelFence at hok
  split at hok
  · cases hok
    exact ⟨h.visible, h.laneVisible⟩
  · cases hok

theorem beginFence (h : Bounded g) : Bounded g.beginFence.2 := by
  unfold SequenceGate.beginFence
  dsimp only
  split
  · exact ⟨h.visible, h.laneVisible⟩
  · exact ⟨h.visible, h.laneVisible⟩

end Bounded

/-! ### What the writer does -/

section Writer

variable {s : WriterCore}

theorem publishCommitted_bounded (fenced : Bool) (first upTo : Nat) (point : HlcPoint)
    (notifications : List Notification) (h : Bounded s.index.gate) :
    Bounded (finalState (publishCommitted fenced first upTo point notifications s)).index.gate := by
  cases fenced with
  | false =>
      change Bounded (finalState (publishThenBroadcastUnfenced _ _ _ s)).index.gate
      unfold publishThenBroadcastUnfenced
      split
      · exact h
      · rename_i gate hpublish
        exact h.publishOnLanes hpublish
  | true =>
      change Bounded (finalState (recordFenceProgress _ _ _ _ s)).index.gate
      unfold recordFenceProgress
      split
      · exact h
      · dsimp only
        split
        · exact h
        · rename_i gate hnote
          exact h.noteFenceProgress hnote

theorem handleAppend_bounded (cfg : StoreConfig) (rt : Runtime) (flt : Faults)
    (req : AppendRequest) (fenced : Bool) (h : Bounded s.index.gate) :
    Bounded (finalState (handleAppend cfg rt flt req fenced s)).index.gate := by
  have hcases := handleAppend_cases cfg rt flt req fenced s
  generalize handleAppend cfg rt flt req fenced s = res at hcases
  cases hcases with
  | failed e s' quiet =>
      rw [finalState_error, quiet.gate]
      exact h.reserve 0
  | replayed key receipt keyed guarded known => exact h
  | committed st pos s₀ s₁ quiet guarded fresh sameSegment prepared =>
      have hgate : (commitState req.idempotencyKey.isSome st pos s₁).index.gate =
          (s.index.gate.reserve 0).reserve 1 := by
        change s₁.index.gate.reserve 1 = _
        rw [prepared.diskOnly.index, quiet.gate]
      unfold publishAppend
      rw [finalState_bind_pure]
      apply publishCommitted_bounded
      rw [hgate]
      exact (h.reserve 0).reserve 1

theorem handleAppendBatch_bounded (cfg : StoreConfig) (rt : Runtime) (flt : Faults) (nowUs : Int)
    (items : List BatchAppendItem) (fenced : Bool) (h : Bounded s.index.gate) :
    Bounded (finalState (handleAppendBatch cfg rt flt nowUs items fenced s)).index.gate := by
  have hcases := handleAppendBatch_cases cfg rt flt nowUs items fenced s
  generalize handleAppendBatch cfg rt flt nowUs items fenced s = res at hcases
  cases hcases with
  | failed e n s' quiet =>
      rw [finalState_error, quiet.gate]
      exact h.reserve n
  | replayed receipts known => exact h
  | committed staged receipts s₀ s₁ nonempty fresh homogeneous quiet prepared =>
      have hgate : (commitBatchState (batchKeyed items) staged receipts s₁).index.gate =
          s.index.gate.reserve items.length := by
        unfold commitBatchState
        rw [StoreIndex.insertBatch_gate]
        change s₁.index.gate = _
        rw [prepared.diskOnly.index, quiet.gate]
      unfold publishBatch
      rw [finalState_bind_pure]
      apply publishCommitted_bounded
      rw [hgate]
      exact h.reserve _

theorem commitVisibilityFence_bounded (token : Nat) (h : Bounded s.index.gate) :
    Bounded (finalState (commitVisibilityFence token s)).index.gate :=
  commitVisibilityFence_cases h (fun _ _ _ _ _ => h)
    fun _ _ _ _ hfinish => h.finishFenceOnLanes hfinish

theorem gateAfterCancel_bounded (token : Nat) (h : Bounded s.index.gate) :
    Bounded (s.gateAfterCancel token) :=
  gateAfterCancel_cases h fun _ hcancel => h.cancelFence hcancel

theorem cancelVisibilityFence_bounded (flt : Faults) (token : Nat) (h : Bounded s.index.gate) :
    Bounded (finalState (cancelVisibilityFence flt token s)).index.gate :=
  have hcancelled := gateAfterCancel_bounded token h
  cancelVisibilityFence_cases h (fun _ _ _ _ => hcancelled) fun _ _ _ => hcancelled

theorem autoCancelFenceOnShutdown_bounded (flt : Faults) (h : Bounded s.index.gate) :
    Bounded (autoCancelFenceOnShutdown flt s).index.gate :=
  autoCancelFenceOnShutdown_cases (fun _ => h) fun fence _ => gateAfterCancel_bounded fence.token h

theorem writerRules_bounded (cfg : StoreConfig) (rt : Runtime) :
    WriterRules cfg rt (fun s => Bounded s.index.gate) fun _ => True where
  reply _ _ h := h
  pend _ h := h
  append flt req h _ := handleAppend_bounded cfg rt flt req false h
  fenceAppend flt req h _ := handleAppend_bounded cfg rt flt req true h
  appendBatch flt nowUs items h _ := handleAppendBatch_bounded cfg rt flt nowUs items false h
  fenceAppendBatch flt nowUs items h _ := handleAppendBatch_bounded cfg rt flt nowUs items true h
  beginFence _ h := beginVisibilityFence_cases h fun _ _ _ => h
  commitFence token h := commitVisibilityFence_bounded token h
  cancelFence flt token h := cancelVisibilityFence_bounded flt token h
  autoCancel flt h := autoCancelFenceOnShutdown_bounded flt h
  footer h := h
  sync flt h := by
    unfold syncActiveSegment
    split
    · exact h
    · exact h

end Writer

/-! ### Whole lives -/

/-- A restored gate shows exactly what it allocated. -/
theorem restored_bounded {entries : List IndexEntry} {hint : Nat}
    {ranges : Option CancelledVisibilityRanges} {ix : StoreIndex}
    (h : RestoredIndex entries hint ranges ix)
    (hsorted : entries.Pairwise fun a b => a.globalSequence ≤ b.globalSequence) :
    Bounded ix.gate where
  visible := by rw [h.gate.visible, h.gate.allocated]
  laneVisible lane := by
    rw [h.gate.laneVisible, h.gate.allocated]
    exact laneVisibleFromEntries_le (fun e he => lt_nextSequence hint hsorted he) lane

theorem scanRules_any (segments : List Segment) : ScanRules (fun _ => True) segments where
  frame _ _ _ _ _ := trivial
  row _ _ _ _ _ _ := trivial
  extensions _ _ _ := trivial

/-- Every step is allowed. -/
def freeGuards : LifecycleGuards where
  append _ := True
  compact _ _ := True
  close _ _ := True
  crash _ _ _ := True
  reopen _ _ _ := True

theorem freeGuards_allows (st : StoreState) (step : LifecycleStep) : freeGuards.Allows st step := by
  unfold LifecycleGuards.Allows
  split
  · exact fun _ => trivial
  · exact trivial
  · exact trivial
  · exact trivial
  · exact trivial
  · exact trivial

theorem boundedLife (cfg : LifecycleConfig) (rt : Runtime) :
    LifecycleRules cfg rt (fun core _ => Bounded core.index.gate) (fun _ _ _ _ => True)
      freeGuards where
  writer _ := writerRules_bounded cfg.store rt
  watermark _ h := h
  beginFence h := h.beginFence
  swap _ _ hresult := by
    obtain ⟨chunks, entries, hint, -, -, hplan, hrestored⟩ := compactionResult_restored hresult
    have hsorted := (@collectRebuildEntries_of (fun _ => True) _ _ _ _ (scanRules_any _) hplan).sorted
    exact restored_bounded hrestored hsorted
  sweep h := h
  flush h := h
  snapshot h := h
  closed _ _ _ _ := trivial
  crash _ _ := trivial
  spawn _ _ hindex := by
    obtain ⟨entries, hint, hplan, hrestored⟩ := openIndex_restored hindex
    have hsorted := (@restorePlan_of (fun _ => True) _ _ _ _ _ (fun _ _ _ _ => trivial)
      (scanRules_any _) hplan).sorted
    exact ⟨restored_bounded hrestored hsorted, trivial⟩
  abandon _ _ := trivial

/-- Whatever happened to a store, what it shows was allocated. -/
theorem bounded_of_life (cfg : LifecycleConfig) (rt : Runtime) (steps : List LifecycleStep)
    {core : WriterCore} (h : (run (lifecycleStep cfg rt) .blank steps).core? = some core) :
    Bounded core.index.gate := by
  have hfinal := run_invariant_always (I := StoreHolds (fun core _ => Bounded core.index.gate)
    fun _ _ _ _ => True) (fun st step hst => (boundedLife cfg rt).lifecycleStep st step hst
      (freeGuards_allows st step)) steps .blank trivial
  generalize run (lifecycleStep cfg rt) .blank steps = st at hfinal h
  cases st with
  | opened core' side =>
      cases h
      exact hfinal
  | closed segments ranges side fences => cases h

end Batpak.Store
