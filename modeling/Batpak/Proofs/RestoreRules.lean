/-
Module: Batpak.Proofs.RestoreRules
Purpose: What a restore can read out of the files, and the rule that carries a property of scanned
  entries through every restore path.
Trusted boundary: none
Main exports: ScanRules.rebuildScan, ScanRules.tailScan
-/
import Batpak.Store.ColdStart

namespace Batpak.Store

open Batpak.Util

variable {found : List ScannedIndexEntry}

/-- What has to be shown of a property of scanned entries over the files of a restore. -/
structure ScanRules (P : ScannedIndexEntry → Prop) (segments : List Segment) : Prop where
  frame : ∀ seg ∈ segments, ∀ p ∈ seg.located, p.1.kind.isBatchMarker = false →
    P (.ofFrame p.1 p.2)
  row : ∀ seg ∈ segments, ∀ rows, seg.footer = some rows → ∀ row ∈ rows,
    P (.fromColdStartRow seg.id row)
  extensions : ∀ se extensions, P se → P { se with receiptExtensions := extensions }

/-- The entries of the open batch have the property too. -/
def BatchRecoveryState.All (P : ScannedIndexEntry → Prop) (st : BatchRecoveryState) : Prop :=
  ∀ se ∈ st.staged, P se

variable {P : ScannedIndexEntry → Prop}

theorem BatchRecoveryState.all_initial : BatchRecoveryState.initial.All P :=
  fun se hse => by cases hse

theorem scanFrame_all {f : Frame} {pos : DiskPos} {st st' : BatchRecoveryState} (hst : st.All P)
    (hf : f.kind.isBatchMarker = false → P (.ofFrame f pos))
    (h : scanFrame f pos st = .ok (st', found)) : st'.All P ∧ ∀ se ∈ found, P se := by
  unfold scanFrame at h
  split at h
  · split at h
    · cases h
    · cases h
      refine ⟨?_, fun se hse => by cases hse⟩
      intro se hse
      split at hse
      · cases hse
      · exact hst se hse
  · split at h
    · split at h
      · cases h
        refine ⟨fun se hse => (by cases hse), ?_⟩
        intro se hse
        split at hse
        · exact hst se hse
        · cases hse
      · cases h
        exact ⟨hst, fun se hse => by cases hse⟩
    · rename_i hbegin hcommit
      have hentry : P (.ofFrame f pos) := hf (by simp [EventKind.isBatchMarker, hbegin, hcommit])
      split at h
      · split at h
        · rename_i st₁ hstage
          cases h
          refine ⟨?_, fun se hse => by cases hse⟩
          unfold BatchRecoveryState.stageEntry at hstage
          split at hstage
          · cases hstage
          · cases hstage
            intro se hse
            rcases List.mem_append.mp hse with hse | hse
            · exact hst se hse
            · rw [List.mem_singleton.mp hse]
              exact hentry
        · cases h
          exact ⟨fun se hse => (by cases hse), fun se hse => by cases hse⟩
      · cases h
        refine ⟨hst, fun se hse => ?_⟩
        rw [List.mem_singleton.mp hse]
        exact hentry

theorem scanChunks_all (policy : FrameScanTailPolicy) (toEof : Bool) (segmentId : Nat)
    (chunks : List Chunk) :
    ∀ {offset : Nat} {st st' : BatchRecoveryState} {found : List ScannedIndexEntry}, st.All P →
      (∀ p ∈ Segment.locate segmentId offset chunks, p.1.kind.isBatchMarker = false →
        P (.ofFrame p.1 p.2)) →
      scanChunks policy toEof segmentId offset chunks st = .ok (st', found) →
      st'.All P ∧ ∀ se ∈ found, P se := by
  induction chunks with
  | nil =>
      intro offset st st' found hst _ h
      cases h
      exact ⟨hst, fun se hse => by cases hse⟩
  | cons c rest ih =>
      intro offset st st' found hst hframes h
      cases c with
      | torn length =>
          rw [scanChunks] at h
          split at h
          · rename_i hzero
            subst hzero
            exact ih hst hframes h
          · split at h
            · cases h
            · split at h
              · cases h
                exact ⟨hst, fun se hse => by cases hse⟩
              · split at h
                · cases h
                  exact ⟨hst, fun se hse => by cases hse⟩
                · cases h
      | frame f length =>
          rw [scanChunks] at h
          split at h
          · split at h
            · cases h
              exact ⟨hst, fun se hse => by cases hse⟩
            · cases h
          · cases hf : scanFrame f ⟨segmentId, offset, length⟩ st with
            | error e =>
                rw [hf] at h
                cases h
            | ok r =>
                obtain ⟨st₁, found₁⟩ := r
                rw [hf] at h
                obtain ⟨hst₁, hfound₁⟩ :=
                  scanFrame_all hst (hframes _ List.mem_cons_self) hf
                simp only at h
                cases hrest : scanChunks policy toEof segmentId (offset + length) rest st₁ with
                | error e =>
                    rw [hrest] at h
                    cases h
                | ok r =>
                    obtain ⟨st₂, found₂⟩ := r
                    rw [hrest] at h
                    cases h
                    obtain ⟨hst₂, hfound₂⟩ := ih hst₁
                      (fun p hp => hframes p (List.mem_cons_of_mem _ hp)) hrest
                    refine ⟨hst₂, fun se hse => ?_⟩
                    rcases List.mem_append.mp hse with hse | hse
                    · exact hfound₁ se hse
                    · exact hfound₂ se hse

namespace ScanRules

variable {segments : List Segment}

theorem footerEntries (h : ScanRules P segments) {seg : Segment} (hseg : seg ∈ segments)
    {rows : List SidxEntry} (hrows : seg.footer = some rows) :
    ∀ se ∈ footerEntries seg.id rows, P se := by
  intro se hse
  obtain ⟨row, hrow, rfl⟩ := List.mem_map.mp hse
  exact h.row seg hseg rows hrows row (List.mem_of_mem_filter hrow)

theorem scanSegment (h : ScanRules P segments) (policy : FrameScanTailPolicy)
    (activeId : Option Nat) {seg : Segment} (hseg : seg ∈ segments)
    {st st' : BatchRecoveryState} (hst : st.All P)
    (hscan : scanSegment policy activeId seg st = .ok (st', found)) :
    st'.All P ∧ ∀ se ∈ found, P se := by
  have hframes : ∀ {st' found}, frameScanSegment policy seg st = .ok (st', found) →
      st'.All P ∧ ∀ se ∈ found, P se :=
    fun hscan => scanChunks_all policy _ seg.id seg.chunks hst (h.frame seg hseg) hscan
  unfold Store.scanSegment at hscan
  split at hscan
  · rename_i rows hrows
    split at hscan
    · cases hscan
      exact ⟨hst, h.footerEntries hseg hrows⟩
    · exact hframes hscan
  · exact hframes hscan

theorem scannedEntriesFromSidxFooter (h : ScanRules P segments) (files : List Segment)
    {seg : Segment} (hseg : seg ∈ segments)
    (hscan : scannedEntriesFromSidxFooter files seg = .ok found) : ∀ se ∈ found, P se := by
  unfold Store.scannedEntriesFromSidxFooter at hscan
  split at hscan
  · cases hscan
  · rename_i rows hrows
    intro se hse
    obtain ⟨row, hrow, hse⟩ := mem_of_mapM_ok hscan hse
    split at hse
    · cases hse
      exact h.extensions _ _ (h.footerEntries hseg hrows row hrow)
    · cases hse

theorem readSealedSidxEntriesParallel (h : ScanRules P segments) (files : List Segment)
    {sealed : List Segment} (hsealed : ∀ seg ∈ sealed, seg ∈ segments)
    (hscan : readSealedSidxEntriesParallel files sealed = some found) : ∀ se ∈ found, P se := by
  unfold Store.readSealedSidxEntriesParallel at hscan
  split at hscan
  · rename_i batches hbatches
    cases hscan
    intro se hse
    rw [List.mem_insertionSort, List.mem_flatten] at hse
    obtain ⟨batch, hbatch, hse⟩ := hse
    obtain ⟨seg, hseg, hbatch⟩ := mem_of_mapM_ok hbatches hbatch
    exact h.scannedEntriesFromSidxFooter files (hsealed seg hseg) hbatch se hse
  · cases hscan

theorem scanSealed (h : ScanRules P segments) (activeId : Option Nat)
    (hscan : scanSealed activeId segments = .ok found) :
    ∀ se ∈ found, P se := by
  have hbelow : ∀ seg ∈ sealedBelow activeId segments, seg ∈ segments :=
    fun seg hseg => List.mem_of_mem_filter hseg
  unfold Store.scanSealed at hscan
  dsimp only at hscan
  split at hscan
  · rename_i entries hentries
    cases hscan
    exact h.readSealedSidxEntriesParallel segments hbelow hentries
  · obtain ⟨⟨st, entries⟩, hall, rfl⟩ := mapOk_iff.mp hscan
    exact (scan_invariant
      (fun seg hseg st st' found hst hok =>
        h.scanSegment _ activeId (hbelow seg hseg) hst hok)
      BatchRecoveryState.all_initial hall).2

theorem scanActive (h : ScanRules P segments) (activeId : Option Nat)
    (hscan : scanActive activeId segments = .ok found) :
    ∀ se ∈ found, P se := by
  obtain ⟨⟨st, entries⟩, hall, rfl⟩ := mapOk_iff.mp hscan
  exact (scan_invariant
    (fun seg hseg st st' found hst hok =>
      h.scanSegment _ activeId (List.mem_of_mem_filter hseg) hst hok)
    BatchRecoveryState.all_initial hall).2

theorem rebuildScan (h : ScanRules P segments) (activeId : Option Nat)
    (hscan : rebuildScan activeId segments = .ok found) :
    ∀ se ∈ found, P se := by
  obtain ⟨sealed, hsealed, hscan⟩ := bindOk_iff.mp hscan
  obtain ⟨active, hactive, hscan⟩ := bindOk_iff.mp hscan
  cases hscan
  intro se hse
  rcases List.mem_append.mp hse with hse | hse
  · exact h.scanSealed activeId hsealed se hse
  · exact h.scanActive activeId hactive se hse

theorem tailScan (h : ScanRules P segments) (snap : Snapshot)
    (hscan : tailScan snap segments = .ok found) :
    ∀ se ∈ found, P se := by
  obtain ⟨⟨st, entries⟩, hall, rfl⟩ := mapOk_iff.mp hscan
  refine (scan_invariant (I := BatchRecoveryState.All P)
    (fun seg hseg st st' found hst hok => ?_) BatchRecoveryState.all_initial hall).2
  obtain ⟨⟨st₁, found₁⟩, hseg₁, hfiltered⟩ := mapOk_iff.mp hok
  cases hfiltered
  obtain ⟨hst₁, hfound₁⟩ := h.scanSegment _ none (List.mem_of_mem_filter hseg) hst hseg₁
  exact ⟨hst₁, fun se hse => hfound₁ se (List.mem_of_mem_filter hse)⟩

end ScanRules

end Batpak.Store
