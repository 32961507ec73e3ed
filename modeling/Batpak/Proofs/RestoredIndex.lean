/-
Module: Batpak.Proofs.RestoredIndex
Purpose: The index a restore ends in, whether an open or a compaction asked for it.
Trusted boundary: none
Main exports: RestoredIndex, openIndex_restored
-/
import Batpak.Proofs.CompactionContent
import Batpak.Proofs.RestoreRules
import Batpak.Store.Lifecycle

namespace Batpak.Store

open Batpak.Util

variable {entries : List IndexEntry}

/-! ### The plan -/

theorem sortBySequence_sorted (entries : List IndexEntry) :
    (sortBySequence entries).Pairwise fun a b => a.globalSequence ≤ b.globalSequence := by
  have : Std.Total fun a b : IndexEntry => a.globalSequence ≤ b.globalSequence :=
    ⟨fun a b => Nat.le_total _ _⟩
  have : IsTrans IndexEntry fun a b => a.globalSequence ≤ b.globalSequence :=
    ⟨fun a b c => Nat.le_trans⟩
  exact List.pairwise_insertionSort _ entries

@[simp] theorem mem_sortBySequence {entries : List IndexEntry} {e : IndexEntry} :
    e ∈ sortBySequence entries ↔ e ∈ entries :=
  List.mem_insertionSort _

/-- Numbering turns every scanned entry into one index entry. -/
theorem mem_numberEntries {scanned : List ScannedIndexEntry} {t : SequenceTracker}
    {e : IndexEntry} (h : e ∈ (numberEntries t scanned).1) :
    ∃ se ∈ scanned, ∃ n, e = entryFromScan se n := by
  induction scanned generalizing t with
  | nil => cases h
  | cons se rest ih =>
      rcases List.mem_cons.mp h with rfl | h
      · exact ⟨se, List.mem_cons_self, _, rfl⟩
      · obtain ⟨se', hse', n, rfl⟩ := ih h
        exact ⟨se', List.mem_cons_of_mem _ hse', n, rfl⟩

/-- A plan in sequence order whose entries all have a property of their provenance. -/
structure PlanOf (P : Option Provenance → Prop) (entries : List IndexEntry) : Prop where
  sorted : entries.Pairwise fun a b => a.globalSequence ≤ b.globalSequence
  all : ∀ e ∈ entries, P e.provenance

variable {P : Option Provenance → Prop}

theorem collectRebuildEntries_of {activeId : Option Nat} {segments : List Segment}
    {entries : List IndexEntry} {hint : Nat}
    (hrules : ScanRules (fun se => P se.provenance) segments)
    (h : collectRebuildEntries activeId segments = .ok (entries, hint)) : PlanOf P entries := by
  obtain ⟨scanned, hscanned, h⟩ := bindOk_iff.mp h
  cases h
  refine ⟨sortBySequence_sorted _, ?_⟩
  intro e he
  obtain ⟨se, hse, n, rfl⟩ := mem_numberEntries (mem_sortBySequence.mp he)
  exact hrules.rebuildScan activeId hscanned se hse

theorem snapshotPlan_of {snap : Snapshot} {segments : List Segment}
    {hint : Nat} (hsnap : ∀ e ∈ snap.entries, P e.provenance)
    (hrules : ScanRules (fun se => P se.provenance) segments)
    (h : snapshotPlan snap segments = .ok (entries, hint)) : PlanOf P entries := by
  obtain ⟨tail, htail, h⟩ := bindOk_iff.mp h
  obtain ⟨scanned, hscanned, htail⟩ := bindOk_iff.mp htail
  cases htail
  cases h
  refine ⟨sortBySequence_sorted _, ?_⟩
  intro e he
  rcases List.mem_append.mp (mem_sortBySequence.mp he) with he | he
  · exact hsnap e he
  · obtain ⟨se, hse, n, rfl⟩ := mem_numberEntries he
    exact hrules.tailScan snap hscanned se hse

/-- Whatever the restore path, the plan holds what the files and the snapshot hold. -/
theorem restorePlan_of {rt : Runtime} {snapshot : Option Snapshot} {segments : List Segment}
    {entries : List IndexEntry} {hint : Nat}
    (hsnap : ∀ snap, snapshot = some snap → ∀ e ∈ snap.entries, P e.provenance)
    (hrules : ScanRules (fun se => P se.provenance) segments)
    (h : restorePlan rt snapshot segments = .ok (entries, hint)) : PlanOf P entries := by
  unfold restorePlan at h
  split at h
  · rename_i snap hvalid
    exact snapshotPlan_of (hsnap snap (Option.filter_eq_some_iff.mp hvalid).1) hrules h
  · exact collectRebuildEntries_of hrules h

/-- The located frames of a file are its frames. -/
theorem mem_frames_of_locate {segmentId : Nat} {chunks : List Chunk} {offset : Nat}
    {p : Frame × DiskPos} (h : p ∈ Segment.locate segmentId offset chunks) :
    ∃ length, .frame p.1 length ∈ chunks := by
  induction chunks generalizing offset with
  | nil => cases h
  | cons c rest ih =>
      cases c with
      | torn length =>
          obtain ⟨n, hn⟩ := ih h
          exact ⟨n, List.mem_cons_of_mem _ hn⟩
      | frame f length =>
          rcases List.mem_cons.mp h with rfl | h
          · exact ⟨length, List.mem_cons_self⟩
          · obtain ⟨n, hn⟩ := ih h
            exact ⟨n, List.mem_cons_of_mem _ hn⟩

theorem mem_frames_of_located {seg : Segment} {p : Frame × DiskPos} (h : p ∈ seg.located) :
    p.1 ∈ seg.frames := by
  obtain ⟨length, hmem⟩ := mem_frames_of_locate h
  exact List.mem_filterMap.mpr ⟨_, hmem, rfl⟩

/-- Properties of the provenance need only be shown of frames and footer rows. -/
theorem scanRules_provenance {segments : List Segment}
    (hframes : ∀ seg ∈ segments, ∀ f ∈ seg.frames, P f.provenance)
    (hrows : ∀ seg ∈ segments, ∀ rows, seg.footer = some rows → ∀ row ∈ rows, P row.provenance) :
    ScanRules (fun se => P se.provenance) segments where
  frame seg hseg p hp _ := hframes seg hseg p.1 (mem_frames_of_located hp)
  row := hrows
  extensions _ _ hse := hse

/-! ### The lane bounds -/

theorem le_foldl_laneVisible (entries : List IndexEntry) (lanes : Nat → Nat) (lane : Nat) :
    lanes lane ≤ entries.foldl (fun lanes e =>
      Function.update lanes e.dagLane (max (lanes e.dagLane) (e.globalSequence + 1))) lanes
      lane := by
  induction entries generalizing lanes with
  | nil => exact Nat.le_refl _
  | cons e rest ih =>
      rw [List.foldl_cons]
      refine Nat.le_trans ?_ (ih _)
      by_cases hlane : lane = e.dagLane
      · subst hlane
        rw [Function.update_self]
        exact Nat.le_max_left _ _
      · rw [Function.update_of_ne hlane]

theorem lt_foldl_laneVisible {e : IndexEntry} (he : e ∈ entries) (lanes : Nat → Nat) :
    e.globalSequence < entries.foldl (fun lanes e =>
      Function.update lanes e.dagLane (max (lanes e.dagLane) (e.globalSequence + 1))) lanes
      e.dagLane := by
  induction entries generalizing lanes with
  | nil => cases he
  | cons x rest ih =>
      rw [List.foldl_cons]
      rcases List.mem_cons.mp he with rfl | he
      · refine Nat.lt_of_lt_of_le ?_ (le_foldl_laneVisible rest _ _)
        rw [Function.update_self]
        exact Nat.lt_of_lt_of_le (Nat.lt_succ_self _) (Nat.le_max_right _ _)
      · exact ih he _

theorem foldl_laneVisible_le {bound : Nat}
    (h : ∀ e ∈ entries, e.globalSequence < bound) (lanes : Nat → Nat) (lane : Nat)
    (hlanes : ∀ lane, lanes lane ≤ bound) :
    entries.foldl (fun lanes e =>
      Function.update lanes e.dagLane (max (lanes e.dagLane) (e.globalSequence + 1))) lanes lane ≤
      bound := by
  induction entries generalizing lanes with
  | nil => exact hlanes lane
  | cons e rest ih =>
      rw [List.foldl_cons]
      apply ih fun e' he' => h e' (List.mem_cons_of_mem _ he')
      intro l
      by_cases hl : l = e.dagLane
      · subst hl
        rw [Function.update_self]
        exact Nat.max_le.mpr ⟨hlanes _, h e List.mem_cons_self⟩
      · rw [Function.update_of_ne hl]
        exact hlanes l

/-- A restored entry is below the bound of its lane. -/
theorem lt_laneVisibleFromEntries {e : IndexEntry}
    (he : e ∈ entries) : e.globalSequence < StoreIndex.laneVisibleFromEntries entries e.dagLane :=
  lt_foldl_laneVisible he _

theorem laneVisibleFromEntries_le {bound : Nat}
    (h : ∀ e ∈ entries, e.globalSequence < bound) (lane : Nat) :
    StoreIndex.laneVisibleFromEntries entries lane ≤ bound :=
  foldl_laneVisible_le h _ lane fun _ => Nat.zero_le _

theorem lt_nextSequence {e : IndexEntry} (hint : Nat)
    (hsorted : entries.Pairwise fun a b => a.globalSequence ≤ b.globalSequence)
    (he : e ∈ entries) : e.globalSequence < StoreIndex.nextSequence entries hint := by
  rcases List.eq_nil_or_concat entries with rfl | ⟨init, last, rfl⟩
  · cases he
  · have hlast : e.globalSequence ≤ last.globalSequence := by
      rw [List.concat_eq_append] at he hsorted
      rcases List.mem_append.mp he with he | he
      · exact (List.pairwise_append.mp hsorted).2.2 e he last (List.mem_singleton_self last)
      · rw [List.mem_singleton.mp he]
    have hnext : last.globalSequence + 1 ≤ StoreIndex.nextSequence (init.concat last) hint := by
      simp [StoreIndex.nextSequence]
    exact Nat.lt_of_lt_of_le (Nat.lt_succ_of_le hlast) hnext

/-! ### The index -/

/-- Everything is published, no fence is active, and exactly the stored ranges are
cancelled. -/
structure RestoredGate (entries : List IndexEntry) (hint : Nat)
    (ranges : Option CancelledVisibilityRanges) (g : SequenceGate) : Prop where
  allocated : g.allocated = StoreIndex.nextSequence entries hint
  visible : g.visible = StoreIndex.nextSequence entries hint
  laneVisible : g.laneVisible = StoreIndex.laneVisibleFromEntries entries
  activeFence : g.activeFence = 0
  fenceStart : g.activeFenceStart = none
  fenceEnd : g.activeFenceEnd = 0
  cancelled : ∀ x, rangeContains g.cancelledRanges x =
    rangeContains (ranges.elim [] (·.global)) x
  laneCancelled : ∀ lane x, rangeContains (g.laneCancelledRanges lane) x =
    rangeContains (ranges.elim [] (·.lanes lane)) x

/-- The index restored from a plan. -/
structure RestoredIndex (entries : List IndexEntry) (hint : Nat)
    (ranges : Option CancelledVisibilityRanges) (ix : StoreIndex) : Prop where
  inserted : ix.inserted = entries.reverse
  latest : ix.latest = (entries.insertionSort fun a b => StoreIndex.entityOrder a b).reverse
  gate : RestoredGate entries hint ranges ix.gate

theorem restoreSortedEntries_restored (ix : StoreIndex) (entries : List IndexEntry) (hint : Nat) :
    RestoredIndex entries hint none (ix.restoreSortedEntries entries hint) where
  inserted := rfl
  latest := rfl
  gate := ⟨rfl, rfl, rfl, rfl, rfl, rfl, fun _ => rfl, fun _ _ => rfl⟩

theorem RestoredIndex.applyRanges {hint : Nat} {ix : StoreIndex}
    (h : RestoredIndex entries hint none ix) (ranges : CancelledVisibilityRanges) :
    RestoredIndex entries hint (some ranges) (ix.restoreCancelledVisibilityRanges ranges) where
  inserted := h.inserted
  latest := h.latest
  gate := {
    h.gate with
    cancelled := SequenceGate.rangeContains_rebuildRanges ranges.global
    laneCancelled := fun lane => SequenceGate.rangeContains_rebuildRanges (ranges.lanes lane) }

theorem openIndex_restored {rt : Runtime} {retention : IdempotencyRetention}
    {overflow : OverflowPolicy} {snapshot : Option Snapshot} {idempFile : Option (List IdempEntry)}
    {ranges : Option CancelledVisibilityRanges} {segments : List Segment} {index : StoreIndex}
    (h : openIndex rt retention overflow snapshot idempFile ranges segments = .ok index) :
    ∃ entries hint, restorePlan rt snapshot segments = .ok (entries, hint) ∧
      RestoredIndex entries hint ranges index := by
  obtain ⟨⟨entries, hint⟩, hplan, h⟩ := bindOk_iff.mp h
  refine ⟨entries, hint, hplan, ?_⟩
  have hbase := restoreSortedEntries_restored (.new retention overflow) entries hint
  cases h
  cases ranges with
  | none =>
      cases idempFile with
      | none => exact hbase
      | some stored => exact ⟨hbase.inserted, hbase.latest, hbase.gate⟩
  | some ranges =>
      cases idempFile with
      | none => exact hbase.applyRanges ranges
      | some stored =>
          have happlied := hbase.applyRanges ranges
          exact ⟨happlied.inserted, happlied.latest, happlied.gate⟩

/-- The index a compaction swaps in, rebuilt from the merged file and the active one. -/
theorem compactionResult_restored {cfg : LifecycleConfig} {rt : Runtime}
    {strategy : CompactionStrategy} {core : WriterCore} {merged : Segment} {fresh : StoreIndex}
    (h : compactionResult cfg rt strategy core = .ok (merged, fresh)) :
    ∃ chunks entries hint, copiedChunks rt strategy core.sealed = .ok chunks ∧
      merged = mergedSegment cfg.store ((core.sealed.head?.map (·.id)).getD 0) chunks ∧
      collectRebuildEntries (some core.active.id) [merged, core.active] = .ok (entries, hint) ∧
      RestoredIndex entries hint core.hiddenRanges (core.index.replaceContentsFromFresh fresh) := by
  obtain ⟨chunks, hchunks, h⟩ := bindOk_iff.mp h
  obtain ⟨index, hindex, h⟩ := bindOk_iff.mp h
  cases h
  obtain ⟨⟨entries, hint⟩, hplan, hindex⟩ := bindOk_iff.mp hindex
  refine ⟨chunks, entries, hint, hchunks, rfl, hplan, ?_⟩
  have hbase := restoreSortedEntries_restored (.new cfg.retention cfg.overflow) entries hint
  have hfresh : RestoredIndex entries hint core.hiddenRanges fresh := by
    cases hindex
    cases core.hiddenRanges with
    | none => exact hbase
    | some ranges => exact hbase.applyRanges ranges
  exact {
    inserted := hfresh.inserted
    latest := hfresh.latest
    gate := {
      allocated := hfresh.gate.allocated
      visible := hfresh.gate.visible
      laneVisible := hfresh.gate.laneVisible
      activeFence := rfl
      fenceStart := rfl
      fenceEnd := rfl
      cancelled := fun x =>
        (SequenceGate.rangeContains_rebuildRanges _ x).trans (hfresh.gate.cancelled x)
      laneCancelled := fun lane x =>
        (SequenceGate.rangeContains_rebuildRanges _ x).trans (hfresh.gate.laneCancelled lane x) } }

end Batpak.Store
