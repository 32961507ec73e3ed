/-
Module: Batpak.Proofs.FenceLifecycle
Purpose: The fence view over whole lives: opens and compactions publish everything they restore,
  and every other step keeps what the abstract moves keep.
Trusted boundary: none
Main exports: restored_gated, gatedLife
-/
import Batpak.Proofs.FenceInvariant
import Batpak.Proofs.SequenceStability

namespace Batpak.Store

open Batpak.Util

variable {m n : Nat} {s s' : WriterCore} {cfg : StoreConfig} {rt : Runtime} {fenced : Bool}

/-! ### Fences on disk -/

/-- The event belongs to no fence, or to one of the first `n`. -/
def FenceBelow (n : Nat) (p : Option Provenance) : Prop :=
  ∀ f, fenceOf p = some f → f < n

theorem FenceBelow.mono {p : Option Provenance} (h : FenceBelow m p) (hmn : m ≤ n) :
    FenceBelow n p :=
  fun f hf => Nat.lt_of_lt_of_le (h f hf) hmn

/-- Every event in the files belongs to a fence that was begun. -/
def Known (n : Nat) : DiskView → Prop :=
  DiskAll (fun f => FenceBelow n f.provenance) fun row => FenceBelow n row.provenance

theorem Known.mono {d : DiskView} (h : Known m d) (hmn : m ≤ n) : Known n d :=
  DiskAll.mono h (fun _ hf => hf.mono hmn) fun _ hrow => hrow.mono hmn

theorem fenceBelow_stamp (hs : Gated s.fenceView) (fenced : Bool) (n : Nat) :
    FenceBelow s.fenceCount (some ⟨n, fenceIdentity s fenced⟩) := by
  intro f hf
  have hf : fenceIdentity s fenced = some f := hf
  rw [fenceIdentity_view] at hf
  cases fenced with
  | false => cases hf
  | true =>
      obtain ⟨L, hL, rfl⟩ := Option.map_eq_some_iff.mp hf
      obtain ⟨floor, hopen⟩ := hs.fence L hL
      exact hopen.identity

theorem AppendEffect.known {flt : Faults} {req : AppendRequest}
    (h : AppendEffect cfg rt flt req fenced s s') (hs : Gated s.fenceView)
    (hknown : Known s.fenceCount s.disk) : Known s.fenceCount s'.disk := by
  apply h.diskAll hknown
  intro st hst
  have hprov : st.frame.provenance = some ⟨s.index.globalSequence, fenceIdentity s fenced⟩ :=
    (stageAppend_ok hst).2.2.2.2.2
  have hbelow : FenceBelow s.fenceCount st.frame.provenance := by
    rw [hprov]
    exact fenceBelow_stamp hs fenced _
  exact ⟨hbelow, fun _ => hbelow⟩

theorem BatchEffect.known {flt : Faults} {nowUs : Int} {items : List BatchAppendItem}
    (h : BatchEffect cfg rt flt nowUs items fenced s s') (hs : Gated s.fenceView)
    (hknown : Known s.fenceCount s.disk) : Known s.fenceCount s'.disk := by
  apply h.diskAll hknown
  · rintro staged ⟨ctx, -, hfence, hfrom⟩ st hst
    have hbelow : FenceBelow s.fenceCount st.frame.provenance := by
      rw [(hfrom.sequences st hst).1, hfence]
      exact fenceBelow_stamp hs fenced _
    exact ⟨hbelow, fun _ => hbelow⟩
  · intro batchId kind size nowUs nowMs f hf
    cases hf

theorem AppendCases.fenceCount {req : AppendRequest}
    {res : EStateM.Result StoreError WriterCore AppendReceipt} (h : AppendCases rt req fenced s res) :
    (finalState res).fenceCount = s.fenceCount := by
  cases h with
  | failed e s' quiet => exact quiet.fenceCount
  | replayed key receipt keyed guarded known => rfl
  | committed st pos s₀ s₁ quiet guarded fresh sameSegment prepared =>
      have hpublish := publishAppend_publishOnly fenced st pos
        (commitState req.idempotencyKey.isSome st pos s₁)
      rw [hpublish.fenceCount]
      exact prepared.diskOnly.fenceCount.trans quiet.fenceCount

theorem BatchCases.fenceCount {items : List BatchAppendItem}
    {res : EStateM.Result StoreError WriterCore (List AppendReceipt)}
    (h : BatchCases rt items fenced s res) : (finalState res).fenceCount = s.fenceCount := by
  cases h with
  | failed e n s' quiet => exact quiet.fenceCount
  | replayed receipts known => rfl
  | committed staged receipts s₀ s₁ nonempty fresh homogeneous quiet prepared =>
      have hpublish := publishCommitted_publishOnly fenced s.index.globalSequence
        (s.index.globalSequence + items.length) (batchFrontier staged)
        (staged.map (·.notification)) (commitBatchState (batchKeyed items) staged receipts s₁)
      unfold publishBatch
      rw [finalState_bind_pure, hpublish.finalState.fenceCount]
      exact prepared.diskOnly.fenceCount.trans quiet.fenceCount

/-- The invariant of a running store: `I` of its fence view, and only begun fences on
disk. -/
structure Fenced (I : FenceView → Prop) (s : WriterCore) : Prop where
  view : I s.fenceView
  known : Known s.fenceCount s.disk

section Writer

variable {I : FenceView → Prop}

theorem Fenced.handleAppend (hI : FenceMoves I) (cfg : StoreConfig) (rt : Runtime) (flt : Faults)
    (req : AppendRequest) (fenced : Bool) (hs : Fenced I s) (hready : FenceReady fenced s) :
    Fenced I (finalState (Store.handleAppend cfg rt flt req fenced s)) where
  view := hI.handleAppend cfg rt flt req fenced hs.view hready
  known := by
    rw [(handleAppend_cases cfg rt flt req fenced s).fenceCount]
    exact (handleAppend_effect cfg rt flt req fenced s).known (hI.gated hs.view) hs.known

theorem Fenced.handleAppendBatch (hI : FenceMoves I) (cfg : StoreConfig) (rt : Runtime)
    (flt : Faults) (nowUs : Int) (items : List BatchAppendItem) (fenced : Bool) (hs : Fenced I s)
    (hready : FenceReady fenced s) :
    Fenced I (finalState (Store.handleAppendBatch cfg rt flt nowUs items fenced s)) where
  view := hI.handleAppendBatch cfg rt flt nowUs items fenced hs.view hready
  known := by
    rw [(handleAppendBatch_cases cfg rt flt nowUs items fenced s).fenceCount]
    exact (handleAppendBatch_effect cfg rt flt nowUs items fenced s).known (hI.gated hs.view)
      hs.known

/-- Steps that change neither the files nor the number of fences. -/
theorem Fenced.of_sameDisk (hs : Fenced I s) (hview : I s'.fenceView) (hdisk : s'.disk = s.disk)
    (hcount : s'.fenceCount = s.fenceCount) : Fenced I s' where
  view := hview
  known := by
    rw [hdisk, hcount]
    exact hs.known

theorem beginVisibilityFence_fenceCount (token : Nat) (s : WriterCore) :
    s.fenceCount ≤ (finalState (beginVisibilityFence token s)).fenceCount :=
  beginVisibilityFence_cases (Nat.le_refl _) fun _ _ _ => Nat.le_succ _

theorem commitVisibilityFence_fenceCount (token : Nat) (s : WriterCore) :
    (finalState (commitVisibilityFence token s)).fenceCount = s.fenceCount :=
  commitVisibilityFence_cases rfl (fun _ _ _ _ _ => rfl) fun _ _ _ _ _ => rfl

theorem cancelVisibilityFence_fenceCount (flt : Faults) (token : Nat) (s : WriterCore) :
    (finalState (cancelVisibilityFence flt token s)).fenceCount = s.fenceCount :=
  cancelVisibilityFence_cases rfl (fun _ _ _ _ => rfl) fun _ _ _ => rfl

theorem autoCancelFenceOnShutdown_fenceCount (flt : Faults) (s : WriterCore) :
    (autoCancelFenceOnShutdown flt s).fenceCount = s.fenceCount :=
  autoCancelFenceOnShutdown_cases (fun _ => rfl) fun _ _ => rfl

theorem Fenced.writerRules (hI : FenceMoves I) (cfg : StoreConfig) (rt : Runtime) :
    WriterRules cfg rt (Fenced I) HoldsNothing where
  reply respond reply h := h.of_sameDisk h.view rfl rfl
  pend response h := h.of_sameDisk ((hI.writerRules cfg rt).pend response h.view) rfl rfl
  append flt req h hready := Fenced.handleAppend hI cfg rt flt req false h hready
  fenceAppend flt req h hready := Fenced.handleAppend hI cfg rt flt req true h hready
  appendBatch flt nowUs items h hready :=
    Fenced.handleAppendBatch hI cfg rt flt nowUs items false h hready
  fenceAppendBatch flt nowUs items h hready :=
    Fenced.handleAppendBatch hI cfg rt flt nowUs items true h hready
  beginFence token h := by
    rename_i s
    refine ⟨hI.beginVisibilityFence token h.view, ?_⟩
    rw [beginVisibilityFence_disk]
    exact h.known.mono (beginVisibilityFence_fenceCount token s)
  commitFence token h := by
    rename_i s
    exact h.of_sameDisk (hI.commitVisibilityFence token h.view)
      (commitVisibilityFence_disk token s)
      (commitVisibilityFence_fenceCount token s)
  cancelFence flt token h := by
    rename_i s
    exact h.of_sameDisk (hI.cancelVisibilityFence flt token h.view)
      (cancelVisibilityFence_disk flt token s)
      (cancelVisibilityFence_fenceCount flt token s)
  autoCancel flt h := by
    rename_i s
    exact h.of_sameDisk (hI.autoCancelFenceOnShutdown flt h.view)
      (autoCancelFenceOnShutdown_disk flt s)
      (autoCancelFenceOnShutdown_fenceCount flt s)
  footer h := ⟨h.view, h.known.footer⟩
  sync flt h := by
    unfold syncActiveSegment
    split
    · exact h
    · exact ⟨h.view, h.known.sync⟩

end Writer

/-! ### What a restore publishes -/

/-- A restored index has released everything that is not in the stored ranges. -/
theorem restored_gated {entries : List IndexEntry} {hint : Nat}
    {ranges : Option CancelledVisibilityRanges} {ix : StoreIndex} {committed : List Nat}
    (h : RestoredIndex entries hint ranges ix) (hplan : PlanOf (FenceBelow n) entries)
    (hranges : ∀ r, ranges = some r → LanesWithin r) (hcommitted : ∀ f ∈ committed, f < n) :
    Gated ⟨ix.inserted, ix.gate, none, ranges, n, committed⟩ := by
  have hmem : ∀ e, e ∈ ix.inserted → e ∈ entries := by
    intro e he
    rw [h.inserted] at he
    exact List.mem_reverse.mp he
  have hbelow : ∀ e ∈ entries, e.globalSequence < StoreIndex.nextSequence entries hint :=
    fun e he => lt_nextSequence hint hplan.sorted he
  exact {
    below := fun e he => by
      rw [h.gate.allocated]
      exact hbelow e (hmem e he)
    visible := by
      rw [h.gate.visible, h.gate.allocated]
    laneVisible := fun lane => by
      rw [h.gate.laneVisible, h.gate.allocated]
      exact laneVisibleFromEntries_le hbelow lane
    lanes := fun lane x hx => by
      have hx : rangeContains (ix.gate.laneCancelledRanges lane) x = true := hx
      rw [h.gate.laneCancelled] at hx
      change rangeContains ix.gate.cancelledRanges x = true
      rw [h.gate.cancelled]
      cases ranges with
      | none => cases hx
      | some r => exact hranges r rfl lane x hx
    stored := hranges
    identities := fun e he => hplan.all e (hmem e he)
    committed := hcommitted
    settled := fun e he _ => by
      refine .inl ⟨?_, ?_⟩
      · rw [h.gate.visible]
        exact hbelow e (hmem e he)
      · rw [h.gate.laneVisible]
        exact lt_laneVisibleFromEntries (hmem e he)
    idle := fun _ => ⟨h.gate.fenceStart, h.gate.fenceEnd⟩
    fence := fun L hL => by cases hL }

/-- Snapshots hold events of begun fences only. -/
def SnapshotKnown (n : Nat) (snapshot : Option Snapshot) : Prop :=
  ∀ snap, snapshot = some snap → ∀ e ∈ snap.entries, FenceBelow n e.provenance

theorem SnapshotKnown.mono {snapshot : Option Snapshot} (h : SnapshotKnown m snapshot) (hmn : m ≤ n) :
    SnapshotKnown n snapshot :=
  fun snap hsnap e he => (h snap hsnap e he).mono hmn

/-- Every event in the files of a closed store belongs to a begun fence. -/
def KnownFiles (n : Nat) (segments : List Segment) : Prop :=
  (∀ seg ∈ segments, ∀ f ∈ seg.frames, FenceBelow n f.provenance) ∧
    ∀ seg ∈ segments, ∀ rows, seg.footer = some rows → ∀ row ∈ rows, FenceBelow n row.provenance

theorem Known.files {d : DiskView} (h : Known n d) : KnownFiles n d.segments :=
  ⟨h.frames, h.rows⟩

theorem KnownFiles.scanRules {segments : List Segment} (h : KnownFiles n segments) :
    ScanRules (fun se => FenceBelow n se.provenance) segments :=
  scanRules_provenance h.1 h.2

theorem KnownFiles.merge {strategy : CompactionStrategy} {sealed : List Segment} {active : Segment}
    {id : Nat} {chunks : List Chunk} (h : KnownFiles n (sealed ++ [active]))
    (hcopied : copiedChunks rt strategy sealed = .ok chunks) :
    KnownFiles n [mergedSegment cfg id chunks, active] := by
  have hactive : active ∈ sealed ++ [active] :=
    List.mem_append_right _ (List.mem_singleton_self _)
  constructor
  · intro seg hseg f hf
    rcases List.mem_cons.mp hseg with rfl | hseg
    · obtain ⟨c, hc, hcf⟩ := List.mem_filterMap.mp hf
      cases c with
      | torn k => cases hcf
      | frame g length =>
          cases hcf
          obtain ⟨seg₀, hseg₀, f₀, hf₀, hrewrite⟩ := copiedChunks_frames hcopied hc
          rw [hrewrite, strategy.rewrite_provenance]
          exact h.1 seg₀ (List.mem_append_left _ hseg₀) f₀ hf₀
    · rw [List.mem_singleton.mp hseg] at hf
      exact h.1 active hactive f hf
  · intro seg hseg rows hrows
    rcases List.mem_cons.mp hseg with rfl | hseg
    · cases hrows
    · rw [List.mem_singleton.mp hseg] at hrows
      exact h.2 active hactive rows hrows

theorem mem_cutSegment_frames {kept torn : Nat} {seg : Segment} {f : Frame}
    (h : f ∈ (cutSegment kept torn seg).frames) : f ∈ seg.frames := by
  obtain ⟨c, hc, hcf⟩ := List.mem_filterMap.mp h
  cases c with
  | torn k => cases hcf
  | frame g length =>
      refine List.mem_filterMap.mpr ⟨.frame g length, ?_, hcf⟩
      rcases List.mem_append.mp hc with hc | hc
      · exact List.mem_of_mem_take hc
      · split at hc
        · cases hc
        · cases List.mem_singleton.mp hc

theorem KnownFiles.cut {kept torn : Nat} {sealed : List Segment} {active : Segment}
    (h : KnownFiles n (sealed ++ [active])) :
    KnownFiles n (sealed ++ [cutSegment kept torn active]) := by
  have hactive : active ∈ sealed ++ [active] :=
    List.mem_append_right _ (List.mem_singleton_self _)
  constructor
  · intro seg hseg f hf
    rcases List.mem_append.mp hseg with hseg | hseg
    · exact h.1 seg (List.mem_append_left _ hseg) f hf
    · rw [List.mem_singleton.mp hseg] at hf
      exact h.1 active hactive f (mem_cutSegment_frames hf)
  · intro seg hseg rows hrows
    rcases List.mem_append.mp hseg with hseg | hseg
    · exact h.2 seg (List.mem_append_left _ hseg) rows hrows
    · rw [List.mem_singleton.mp hseg] at hrows
      simp only [cutSegment] at hrows
      split at hrows
      · exact h.2 active hactive rows hrows
      · cases hrows

/-! ### Whole lives -/

/-- What a closed store remembers of its fences. -/
structure FencedDisk (segments : List Segment) (ranges : Option CancelledVisibilityRanges)
    (side : SideFiles) (fences : FenceHistory) : Prop where
  files : KnownFiles fences.count segments
  snapshot : SnapshotKnown fences.count side.snapshot
  ranges : ∀ r, ranges = some r → LanesWithin r
  committed : ∀ f ∈ fences.committed, f < fences.count

/-- The number of begun fences only grows. -/
theorem fenceCount_rules (cfg : StoreConfig) (rt : Runtime) {p : Nat → Prop}
    {A : WriterCore → Prop} (hp : ∀ {m n}, m ≤ n → p m → p n) :
    WriterRules cfg rt (fun s => p s.fenceCount) A where
  reply _ _ h := h
  pend _ h := h
  append flt req h _ := by
    rw [(handleAppend_cases cfg rt flt req false _).fenceCount]
    exact h
  fenceAppend flt req h _ := by
    rw [(handleAppend_cases cfg rt flt req true _).fenceCount]
    exact h
  appendBatch flt nowUs items h _ := by
    rw [(handleAppendBatch_cases cfg rt flt nowUs items false _).fenceCount]
    exact h
  fenceAppendBatch flt nowUs items h _ := by
    rw [(handleAppendBatch_cases cfg rt flt nowUs items true _).fenceCount]
    exact h
  beginFence token h := hp (beginVisibilityFence_fenceCount token _) h
  commitFence token h := by
    rw [commitVisibilityFence_fenceCount]
    exact h
  cancelFence flt token h := by
    rw [cancelVisibilityFence_fenceCount]
    exact h
  autoCancel flt h := by
    rw [autoCancelFenceOnShutdown_fenceCount]
    exact h
  footer h := h
  sync flt h := by
    unfold syncActiveSegment
    split
    · exact h
    · exact h

/-- No unfenced append runs while a fence holds events back, and no compaction while the
writer has a fence open. -/
def fenceGuards : LifecycleGuards where
  append := HoldsNothing
  compact core _ := core.fenceLedger = none
  close _ _ := True
  crash _ _ _ := True
  reopen _ _ _ := True

theorem Fenced.disk {core : WriterCore} {side : SideFiles} (h : Fenced Gated core)
    (hside : SnapshotKnown core.fenceCount side.snapshot) :
    FencedDisk core.segments core.hiddenRanges side core.fences where
  files := h.known.files
  snapshot := hside
  ranges := h.view.stored
  committed := h.view.committed

theorem gatedLife (cfg : LifecycleConfig) (rt : Runtime) :
    LifecycleRules cfg rt
      (fun core side => Fenced Gated core ∧ SnapshotKnown core.fenceCount side.snapshot)
      FencedDisk fenceGuards where
  writer side := (Fenced.writerRules gatedMoves cfg.store rt).and
    (fenceCount_rules cfg.store rt fun hmn h => SnapshotKnown.mono h hmn)
  watermark _ h := ⟨⟨h.1.view, h.1.known⟩, h.2⟩
  beginFence h := ⟨⟨h.1.view.callerBegin, h.1.known⟩, h.2⟩
  swap {core side strategy merged fresh} h hidle hresult := by
    obtain ⟨chunks, entries, hint, hchunks, hmerged, hplan, hrestored⟩ :=
      compactionResult_restored hresult
    have hfiles : KnownFiles core.fenceCount [merged, core.active] := by
      rw [hmerged]
      exact h.1.known.files.merge hchunks
    have hgated := restored_gated hrestored
      (collectRebuildEntries_of hfiles.scanRules hplan) h.1.view.stored h.1.view.committed
    refine ⟨⟨?_, ?_⟩, h.2⟩
    · have hview : (swapCompacted core merged fresh).fenceView =
          ⟨(core.index.replaceContentsFromFresh fresh).inserted,
            (core.index.replaceContentsFromFresh fresh).gate, none, core.hiddenRanges,
            core.fenceCount, core.committedFences⟩ := by
        unfold swapCompacted WriterCore.fenceView
        rw [hidle]
        rfl
      rw [hview]
      exact hgated
    · exact ⟨hfiles.1, hfiles.2, h.1.known.collected⟩
  sweep h := ⟨⟨h.1.view, h.1.known⟩, h.2⟩
  flush h := h
  snapshot {core side} h := by
    refine ⟨h.1, ?_⟩
    rintro snap ⟨⟩ e he
    obtain ⟨e₀, he₀, rfl⟩ := List.mem_map.mp he
    exact h.1.view.identities e₀ (List.mem_of_mem_filter (mem_sortBySequence.mp he₀))
  closed _ _ _ h := h.1.disk h.2
  crash h _ := { (h.1.disk h.2) with files := h.1.known.files.cut }
  spawn {segments ranges side fences index} h _ hindex := by
    obtain ⟨entries, hint, hplan, hrestored⟩ := openIndex_restored hindex
    have hgated := restored_gated hrestored
      (restorePlan_of h.snapshot h.files.scanRules hplan) h.ranges h.committed
    refine ⟨⟨⟨hgated, ?_⟩, h.snapshot⟩, rfl⟩
    refine ⟨?_, ?_, fun row hrow => by cases hrow⟩
    · intro seg hseg f hf
      rcases List.mem_append.mp hseg with hseg | hseg
      · exact h.files.1 seg hseg f hf
      · rw [List.mem_singleton.mp hseg] at hf
        cases hf
    · intro seg hseg rows hrows
      rcases List.mem_append.mp hseg with hseg | hseg
      · exact h.files.2 seg hseg rows hrows
      · rw [List.mem_singleton.mp hseg] at hrows
        cases hrows
  abandon _ h := h.1.disk h.2

theorem fencedDisk_blank : FencedDisk [] none ⟨none, none⟩ ⟨0, []⟩ where
  files := ⟨fun seg hseg => (by cases hseg), fun seg hseg => by cases hseg⟩
  snapshot snap hsnap := by cases hsnap
  ranges r hr := by cases hr
  committed f hf := by cases hf

end Batpak.Store
