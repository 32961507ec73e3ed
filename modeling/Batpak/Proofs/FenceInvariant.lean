/-
Module: Batpak.Proofs.FenceInvariant
Purpose: The writer moves the fence view only by the abstract moves, so whatever those keep
  the writer keeps, provided no unfenced append runs while a fence holds events back.
Trusted boundary: none
Main exports: gatedMoves, FenceMoves.writerRules
-/
import Batpak.Proofs.BatchEffects
import Batpak.Proofs.FenceView
import Batpak.Proofs.WriterInvariant

namespace Batpak.Store

open Batpak.Util

/-- The writer has no fence open, or the open one holds nothing back yet. -/
def HoldsNothing (s : WriterCore) : Prop :=
  (s.fenceLedger.bind (·.publishUpTo)) = none

instance (s : WriterCore) : Decidable (HoldsNothing s) :=
  inferInstanceAs (Decidable (_ = none))

theorem HoldsNothing.empty {s : WriterCore} (h : HoldsNothing s) : s.fenceView.Empty := by
  intro L hL
  obtain ⟨fence, hfence, rfl⟩ := Option.map_eq_some_iff.mp hL
  unfold HoldsNothing at h
  rw [hfence] at h
  exact h

/-- A property of the fence view that every abstract move keeps. -/
structure FenceMoves (I : FenceView → Prop) : Prop where
  gated : ∀ {v}, I v → Gated v
  reserve : ∀ {v} n, I v → I (v.reserve n)
  callerBegin : ∀ {v}, I v → I v.callerBegin
  openFence : ∀ {v} token, I v → v.ledger = none → v.gate.activeFence = token → token ≠ 0 →
    I (v.openFence token)
  release : ∀ {v new n notifications}, I v → v.Empty →
    NewEvents new notifications v.gate.allocated n none → I (v.release new n notifications)
  stage : ∀ {v new n notifications L}, I v → v.ledger = some L →
    NewEvents new notifications v.gate.allocated n (some L.identity) →
      I (v.stage new n notifications L)
  commit : ∀ {v L}, I v → v.ledger = some L → I (v.commitFence L)
  cancel : ∀ {v L points}, I v → v.ledger = some L → PointsInHull v.gate points →
    I (v.cancelFence points)
  persist : ∀ {v}, I v → I v.persist

theorem gatedMoves : FenceMoves Gated where
  gated h := h
  reserve n h := h.reserve n
  callerBegin h := h.callerBegin
  openFence _ h hidle htoken hactive := h.openFence hidle htoken hactive
  release h hempty hnew := h.release hempty hnew
  stage h hL hnew := h.stage hL hnew
  commit h hL := h.commit hL
  cancel h hL hpoints := h.cancel hL hpoints
  persist h := h.persist

/-! ### The view of what the writer does -/

theorem Uncommitted.fenceView {n : Nat} {s s' : WriterCore} (h : Uncommitted n s s') :
    s'.fenceView = s.fenceView.reserve n := by
  unfold WriterCore.fenceView FenceView.reserve
  rw [h.inserted, h.gate, h.fenceLedger, h.hiddenRanges, h.fenceCount, h.committedFences]

theorem DiskOnly.fenceView {s s' : WriterCore} (h : DiskOnly s s') : s'.fenceView = s.fenceView := by
  unfold WriterCore.fenceView
  rw [h.index, h.fenceLedger, h.hiddenRanges, h.fenceCount, h.committedFences]

/-- New entries are indexed and their sequences taken, nothing is published yet. -/
def FenceView.insertNew (new : List IndexEntry) (n : Nat) (v : FenceView) : FenceView :=
  { v with entries := new ++ v.entries, gate := v.gate.reserve n }

section Publication

variable {v : FenceView} {s : WriterCore} {new : List IndexEntry} {n : Nat}
  {notifications : List Notification}

/-- Without a fence the gate accepts the publish. -/
theorem publishUnfenced_fenceView (h : Gated v)
    (hnew : NewEvents new notifications v.gate.allocated n none)
    (hs : s.fenceView = v.insertNew new n) (point : HlcPoint) :
    (finalState (publishThenBroadcastUnfenced (v.gate.allocated + n) point notifications
      s)).fenceView = v.release new n notifications := by
  have hgate : s.index.gate = v.gate.reserve n := congrArg FenceView.gate hs
  have hpublish : s.index.gate.publishOnLanes (v.gate.allocated + n) (laneBounds notifications)
      "publish_then_broadcast_unfenced" = .ok { v.gate.reserve n with
        visible := v.gate.allocated + n
        laneVisible := SequenceGate.installLanes v.gate.laneVisible (laneBounds notifications) } := by
    rw [hgate]
    apply publishOnLanes_laneBounds
    · exact Nat.le_trans h.visible (Nat.le_add_right _ _)
    · exact Nat.le_refl _
    · intro m hm
      obtain ⟨hlow, hhigh⟩ := hnew.announced m hm
      exact ⟨Nat.le_trans (h.laneVisible m.lane) hlow, hhigh⟩
  unfold publishThenBroadcastUnfenced
  rw [hpublish]
  unfold WriterCore.fenceView FenceView.insertNew at hs
  injection hs with hentries _ hledger hstored hcount hcommitted
  simp only [finalState_ok, WriterCore.fenceView, FenceView.release, hentries, hledger, hstored,
    hcount, hcommitted]

/-- Under a fence the ledger and the hull grow. -/
theorem recordFenceProgress_fenceView {L : LedgerView} (h : Gated v) (hL : v.ledger = some L)
    (hs : s.fenceView = v.insertNew new n) (point : HlcPoint)
    (notifications : List Notification) :
    (finalState (recordFenceProgress v.gate.allocated (v.gate.allocated + n) point notifications
      s)).fenceView = v.stage new n notifications L := by
  obtain ⟨floor, hopen⟩ := h.fence L hL
  unfold WriterCore.fenceView FenceView.insertNew at hs
  injection hs with hentries hgate hledger hstored hcount hcommitted
  rw [hL] at hledger
  obtain ⟨fence, hfence, rfl⟩ := Option.map_eq_some_iff.mp hledger
  have hactive : s.index.gate.activeFence = fence.token := by
    rw [hgate]
    exact hopen.token
  unfold recordFenceProgress
  rw [hfence]
  dsimp only
  rw [SequenceGate.noteFenceProgress, if_pos hactive]
  simp only [finalState_ok, WriterCore.fenceView, FenceView.stage, hentries, hstored, hcount,
    hcommitted]
  rw [hgate]
  rfl

end Publication

/-! ### Appends -/

section Appends

variable {I : FenceView → Prop} {s : WriterCore}

/-- Publication of new events, whatever the fence. -/
theorem FenceMoves.publishCommitted (hI : FenceMoves I) {v : FenceView} {new : List IndexEntry}
    {n : Nat} {notifications : List Notification} {fenced : Bool} (hv : I v)
    (hledger : if fenced then v.ledger.isSome = true else v.Empty)
    (hnew : NewEvents new notifications v.gate.allocated n
      (if fenced then v.ledger.map (·.identity) else none))
    (hs : s.fenceView = v.insertNew new n) (point : HlcPoint) :
    I (finalState (Store.publishCommitted fenced v.gate.allocated (v.gate.allocated + n) point
      notifications s)).fenceView := by
  cases fenced with
  | false =>
      have hview := publishUnfenced_fenceView (hI.gated hv) hnew hs point
      change I (finalState (publishThenBroadcastUnfenced _ _ _ _)).fenceView
      rw [hview]
      exact hI.release hv hledger hnew
  | true =>
      obtain ⟨L, hL⟩ := Option.isSome_iff_exists.mp hledger
      have hidentity : (if true = true then v.ledger.map (·.identity) else none) =
          some L.identity := by rw [if_pos rfl, hL]; rfl
      rw [hidentity] at hnew
      have hview := recordFenceProgress_fenceView (hI.gated hv) hL hs point notifications
      change I (finalState (recordFenceProgress _ _ _ _ _)).fenceView
      rw [hview]
      exact hI.stage hv hL hnew

/-- What an append needs of the state it starts from. -/
def FenceReady (fenced : Bool) (s : WriterCore) : Prop :=
  if fenced then s.fenceLedger.isSome = true else HoldsNothing s

theorem FenceReady.ledger {fenced : Bool} (hready : FenceReady fenced s) :
    if fenced then s.fenceView.ledger.isSome = true else s.fenceView.Empty := by
  cases fenced with
  | false => exact HoldsNothing.empty hready
  | true =>
      change (s.fenceLedger.map FenceLedger.view).isSome = true
      rw [Option.isSome_map]
      exact hready

theorem fenceIdentity_view (fenced : Bool) (s : WriterCore) :
    fenceIdentity s fenced = if fenced then s.fenceView.ledger.map (·.identity) else none := by
  unfold fenceIdentity WriterCore.fenceView
  cases fenced with
  | false => rfl
  | true =>
      cases s.fenceLedger with
      | none => rfl
      | some fence => rfl

theorem FenceMoves.handleAppend (hI : FenceMoves I) (cfg : StoreConfig) (rt : Runtime)
    (flt : Faults) (req : AppendRequest) (fenced : Bool) (hs : I s.fenceView)
    (hready : FenceReady fenced s) :
    I (finalState (Store.handleAppend cfg rt flt req fenced s)).fenceView := by
  have hcases := handleAppend_cases cfg rt flt req fenced s
  generalize Store.handleAppend cfg rt flt req fenced s = res at hcases
  cases hcases with
  | failed e s' quiet =>
      rw [finalState_error, quiet.fenceView]
      exact hI.reserve 0 hs
  | replayed key receipt keyed guarded known => exact hs
  | committed st pos s₀ s₁ quiet guarded fresh sameSegment prepared =>
      obtain ⟨-, -, -, -, hseq, hprov⟩ := stageAppend_ok prepared.staged
      have hview : s₁.fenceView = s.fenceView := by
        rw [prepared.diskOnly.fenceView, quiet.fenceView]
        rfl
      have hallocated : st.globalSequence = s.fenceView.gate.allocated := by
        rw [hseq]
        change s₀.index.gate.allocated = s.index.gate.allocated
        rw [quiet.gate]
        rfl
      have hfence := fenceIdentity_congr quiet.fenceLedger fenced
      have hnew : NewEvents [st.indexEntry pos] [st.notification] s.fenceView.gate.allocated 1
          (if fenced then s.fenceView.ledger.map (·.identity) else none) := by
        rw [← hallocated, ← fenceIdentity_view]
        exact {
          sequences := fun e he => by
            rw [List.mem_singleton.mp he]
            exact ⟨Nat.le_refl _, Nat.lt_succ_self _⟩
          fences := fun e he => by
            rw [List.mem_singleton.mp he]
            change fenceOf st.frame.provenance = _
            rw [hprov, hfence]
            rfl
          notified := fun e he => by
            rw [List.mem_singleton.mp he]
            exact ⟨st.notification, List.mem_singleton_self _, rfl, rfl⟩
          announced := fun m hm => by
            rw [List.mem_singleton.mp hm]
            exact ⟨Nat.le_refl _, Nat.lt_succ_self _⟩ }
      have hinserted : (commitState req.idempotencyKey.isSome st pos s₁).fenceView =
          s.fenceView.insertNew [st.indexEntry pos] 1 := by
        rw [← hview]
        rfl
      have hpublished := hI.publishCommitted hs hready.ledger hnew hinserted st.point
      rw [← hallocated] at hpublished
      unfold publishAppend
      rw [finalState_bind_pure]
      exact hpublished

theorem FenceMoves.handleAppendBatch (hI : FenceMoves I) (cfg : StoreConfig) (rt : Runtime)
    (flt : Faults) (nowUs : Int) (items : List BatchAppendItem) (fenced : Bool)
    (hs : I s.fenceView) (hready : FenceReady fenced s) :
    I (finalState (Store.handleAppendBatch cfg rt flt nowUs items fenced s)).fenceView := by
  have hcases := handleAppendBatch_cases cfg rt flt nowUs items fenced s
  generalize Store.handleAppendBatch cfg rt flt nowUs items fenced s = res at hcases
  cases hcases with
  | failed e n s' quiet =>
      rw [finalState_error, quiet.fenceView]
      exact hI.reserve n hs
  | replayed receipts known => exact hs
  | committed staged receipts s₀ s₁ nonempty fresh homogeneous quiet prepared =>
      obtain ⟨ctx, hfirst, hfence, hfrom⟩ := prepared.stagedFrom
      have hview : s₁.fenceView = s.fenceView.reserve items.length := by
        rw [prepared.diskOnly.fenceView, quiet.fenceView]
      have hidentity := fenceIdentity_congr quiet.fenceLedger fenced
      have hstaged : ∀ st ∈ staged, st.frame.provenance = some ⟨st.globalSequence, ctx.fence⟩ ∧
          s.fenceView.gate.allocated ≤ st.globalSequence ∧
          st.globalSequence < s.fenceView.gate.allocated + items.length := by
        intro st hst
        have hsequence := hfrom.sequences st hst
        rw [hfirst] at hsequence
        exact hsequence
      have hnew : NewEvents (batchEntries staged receipts).reverse (staged.map (·.notification))
          s.fenceView.gate.allocated items.length
          (if fenced then s.fenceView.ledger.map (·.identity) else none) := by
        have hentry : ∀ e ∈ (batchEntries staged receipts).reverse, ∃ st ∈ staged, ∃ pos,
            e = st.indexEntry pos := by
          intro e he
          obtain ⟨p, hp, rfl⟩ := List.mem_map.mp (List.mem_reverse.mp he)
          exact ⟨p.1, (List.of_mem_zip hp).1, p.2, rfl⟩
        rw [← fenceIdentity_view, ← hidentity, ← hfence]
        exact {
          sequences := fun e he => by
            obtain ⟨st, hst, pos, rfl⟩ := hentry e he
            exact (hstaged st hst).2
          fences := fun e he => by
            obtain ⟨st, hst, pos, rfl⟩ := hentry e he
            change fenceOf st.frame.provenance = _
            rw [(hstaged st hst).1]
            rfl
          notified := fun e he => by
            obtain ⟨st, hst, pos, rfl⟩ := hentry e he
            exact ⟨st.notification, List.mem_map.mpr ⟨st, hst, rfl⟩, rfl, rfl⟩
          announced := fun m hm => by
            obtain ⟨st, hst, rfl⟩ := List.mem_map.mp hm
            exact (hstaged st hst).2 }
      have hinserted : (commitBatchState (batchKeyed items) staged receipts s₁).fenceView =
          s.fenceView.insertNew (batchEntries staged receipts).reverse items.length := by
        unfold WriterCore.fenceView FenceView.reserve at hview
        injection hview with hentries hgate hledger hstored hcount hcommitted
        simp only [WriterCore.fenceView, commitBatchState, StoreIndex.insertBatch_inserted,
          StoreIndex.insertBatch_gate, FenceView.insertNew, hentries, hgate, hledger, hstored,
          hcount, hcommitted]
      have hpublished := hI.publishCommitted hs hready.ledger hnew hinserted
        (batchFrontier staged)
      unfold publishBatch
      rw [finalState_bind_pure]
      exact hpublished

end Appends

/-! ### Fences -/

section Fences

variable {I : FenceView → Prop} {s : WriterCore}

theorem FenceMoves.beginVisibilityFence (hI : FenceMoves I) (token : Nat) (hs : I s.fenceView) :
    I (finalState (Store.beginVisibilityFence token s)).fenceView := by
  refine beginVisibilityFence_cases hs ?_
  intro hledger hactive hreal
  have hidle : s.fenceView.ledger = none := by
    unfold WriterCore.fenceView
    rw [hledger]
    rfl
  exact hI.openFence token hs hidle hactive hreal

/-- The ledger an operation took out, as the view has it. -/
theorem fenceView_ledger {fence : FenceLedger} (h : s.fenceLedger = some fence) :
    s.fenceView.ledger = some fence.view := by
  unfold WriterCore.fenceView
  rw [h]
  rfl

/-- The gate accepts the commit of a fence nobody published over. -/
theorem Gated.finishes (h : Gated s.fenceView) {fence : FenceLedger}
    (hledger : s.fenceLedger = some fence) :
    s.index.gate.finishFenceOnLanes fence.token fence.publishUpTo
      (laneBounds fence.notifications) = .ok (s.fenceView.commitFence fence.view).gate := by
  obtain ⟨floor, hopen⟩ := h.fence fence.view (fenceView_ledger hledger)
  have hactive : s.index.gate.activeFence = fence.token := hopen.token
  unfold SequenceGate.finishFenceOnLanes FenceView.commitFence
  rw [if_pos hactive]
  cases hu : fence.publishUpTo with
  | none =>
      have hview : fence.view.publishUpTo = none := hu
      rewrite [hview]
      rfl
  | some u =>
      have hview : fence.view.publishUpTo = some u := hu
      have hpublish : s.index.gate.publishOnLanes u (laneBounds fence.notifications)
          "finish_visibility_fence" = _ := hopen.publishes hview "finish_visibility_fence"
      rw [hview]
      dsimp only
      rewrite [hpublish]
      rfl

theorem FenceMoves.commitVisibilityFence (hI : FenceMoves I) (token : Nat) (hs : I s.fenceView) :
    I (finalState (Store.commitVisibilityFence token s)).fenceView := by
  have hfinishes {fence : FenceLedger} := @Gated.finishes s (hI.gated hs) fence
  refine commitVisibilityFence_cases hs ?_ ?_
  · rintro fence e hledger rfl hgate
    rw [hfinishes hledger] at hgate
    cases hgate
  · rintro fence gate hledger rfl hgate
    rw [hfinishes hledger] at hgate
    cases hgate
    exact hI.commit hs (fenceView_ledger hledger)

/-- The lane points of a cancellation lie in the hull of the fence. -/
theorem fenceLanePoints_inHull (ix : StoreIndex) : PointsInHull ix.gate ix.fenceLanePoints := by
  intro p hp
  unfold StoreIndex.fenceLanePoints at hp
  split at hp
  · cases hp
  · rename_i start stop hrange
    obtain ⟨e, he, rfl⟩ := List.mem_map.mp hp
    have hin := (List.mem_filter.mp he).2
    simp only [Bool.and_eq_true, decide_eq_true_eq] at hin
    unfold SequenceGate.activeFenceRange at hrange
    split at hrange
    · cases hrange
    · split at hrange
      · rename_i a ha
        split at hrange
        · cases hrange
          exact ⟨start, ha, hin.1, hin.2⟩
        · cases hrange
      · cases hrange

/-- A cancelled fence, its ranges persisted or not, as the view sees it. -/
theorem FenceMoves.dropped (hI : FenceMoves I) {fence : FenceLedger}
    (hledger : s.fenceLedger = some fence) (hs : I s.fenceView) (replies : List (Nat × Reply)) :
    I (s.fenceDropped (s.gateAfterCancel fence.token) s.hiddenRanges replies).fenceView ∧
      I (s.fenceDropped (s.gateAfterCancel fence.token)
        (some (s.gateAfterCancel fence.token).cancelledRangesSnapshot) replies).fenceView := by
  have hL := fenceView_ledger hledger
  obtain ⟨floor, hopen⟩ := (hI.gated hs).fence _ hL
  have hactive : s.index.gate.activeFence = fence.token := hopen.token
  have hgate : s.gateAfterCancel fence.token =
      (s.fenceView.cancelFence s.index.fenceLanePoints).gate := by
    unfold WriterCore.gateAfterCancel SequenceGate.cancelFence
    rw [if_pos hactive]
    rfl
  rw [hgate]
  have hcancelled := hI.cancel hs hL (fenceLanePoints_inHull s.index)
  exact ⟨hcancelled, hI.persist hcancelled⟩

theorem FenceMoves.cancelVisibilityFence (hI : FenceMoves I) (flt : Faults) (token : Nat)
    (hs : I s.fenceView) :
    I (finalState (Store.cancelVisibilityFence flt token s)).fenceView := by
  refine cancelVisibilityFence_cases hs ?_ ?_
  · rintro fence hledger rfl -
    exact (hI.dropped hledger hs []).1
  · rintro fence hledger rfl
    exact (hI.dropped hledger hs _).2

theorem FenceMoves.autoCancelFenceOnShutdown (hI : FenceMoves I) (flt : Faults)
    (hs : I s.fenceView) : I (Store.autoCancelFenceOnShutdown flt s).fenceView := by
  refine autoCancelFenceOnShutdown_cases (fun _ => hs) ?_
  intro fence hledger
  obtain ⟨hkept, hpersisted⟩ := hI.dropped hledger hs (fence.responses.map (·.cancelledReply)).reverse
  split
  · exact hkept
  · exact hpersisted

/-- Every writer step keeps what the abstract moves keep, as long as unfenced appends run
while nothing is held back. -/
theorem FenceMoves.writerRules (hI : FenceMoves I) (cfg : StoreConfig) (rt : Runtime) :
    WriterRules cfg rt (fun s => I s.fenceView) HoldsNothing where
  reply _ _ h := h
  pend response h := by
    rename_i s
    have hview : ({ s with fenceLedger := s.fenceLedger.map fun fence =>
        { fence with responses := fence.responses ++ [response] } } : WriterCore).fenceView =
        s.fenceView := by
      unfold WriterCore.fenceView
      cases s.fenceLedger with
      | none => rfl
      | some fence => rfl
    exact hview ▸ h
  append flt req h hready := hI.handleAppend cfg rt flt req false h hready
  fenceAppend flt req h hready := hI.handleAppend cfg rt flt req true h hready
  appendBatch flt nowUs items h hready :=
    hI.handleAppendBatch cfg rt flt nowUs items false h hready
  fenceAppendBatch flt nowUs items h hready :=
    hI.handleAppendBatch cfg rt flt nowUs items true h hready
  beginFence token h := hI.beginVisibilityFence token h
  commitFence token h := hI.commitVisibilityFence token h
  cancelFence flt token h := hI.cancelVisibilityFence flt token h
  autoCancel flt h := hI.autoCancelFenceOnShutdown flt h
  footer h := h
  sync flt h := by
    unfold syncActiveSegment
    split
    · exact h
    · exact h

end Fences

end Batpak.Store
