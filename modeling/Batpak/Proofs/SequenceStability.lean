/-
Module: Batpak.Proofs.SequenceStability
Purpose: Global sequences over the whole life of a store: which restores and compactions keep
  them.
Trusted boundary: none
Main exports: RenumbersExactly, sequences_stable_of_gap_free
-/
import Batpak.Proofs.LifecycleInvariant
import Batpak.Proofs.RestoredIndex
import Batpak.Proofs.WriterNumbering

namespace Batpak.Store

open Batpak.Util

variable {entries : List IndexEntry} {segments : List Segment} {hint : Nat} {rt : Runtime}

/-! ### Numbering the entries of a restore -/

/-- A stored sequence is the written one. -/
def StoredHonest (se : ScannedIndexEntry) : Prop :=
  ∀ n, se.globalSequence = some n → WrittenAs se.provenance n

/-- The sequence an event was written with. -/
def ScannedIndexEntry.written (se : ScannedIndexEntry) : Nat :=
  (se.provenance.map (·.sequence)).getD 0

/-- Every event without a stored sequence was written right after the highest sequence
among the events read before it, the first one with sequence zero. -/
def GapFree : Option Nat → List ScannedIndexEntry → Prop
  | _, [] => True
  | highest, se :: rest =>
      (se.globalSequence = none → WrittenAs se.provenance (highest.elim 0 (· + 1))) ∧
        GapFree (some (max (highest.getD 0) se.written)) rest

instance decidableGapFree : (highest : Option Nat) → (scanned : List ScannedIndexEntry) →
    Decidable (GapFree highest scanned)
  | _, [] => inferInstanceAs (Decidable True)
  | highest, se :: rest =>
      have := decidableGapFree (some (max (highest.getD 0) se.written)) rest
      inferInstanceAs (Decidable ((_ → _) ∧ _))

/-- The highest sequence a tracker has seen. -/
def SequenceTracker.highest (t : SequenceTracker) : Option Nat :=
  if t.insertedAny then some t.maxSeen else none

theorem SequenceTracker.synthesizeNext_eq (t : SequenceTracker) :
    t.synthesizeNext = t.highest.elim 0 (· + 1) := by
  obtain ⟨maxSeen, insertedAny⟩ := t
  cases insertedAny with
  | false => rfl
  | true => rfl

/-- What is known of a tracker before anything was seen. -/
def SequenceTracker.Fresh (t : SequenceTracker) : Prop :=
  t.insertedAny = false → t.maxSeen = 0

theorem SequenceTracker.noteSeen_highest {t : SequenceTracker} (ht : t.Fresh) (n : Nat) :
    (t.noteSeen n).highest = some (max (t.highest.getD 0) n) := by
  obtain ⟨maxSeen, insertedAny⟩ := t
  cases insertedAny with
  | false =>
      have hzero : maxSeen = 0 := ht rfl
      subst hzero
      rfl
  | true => rfl

theorem WrittenAs.written {se : ScannedIndexEntry} {n : Nat} (h : WrittenAs se.provenance n) :
    se.written = n := by
  rw [ScannedIndexEntry.written, h]
  rfl

/-- Without gaps every entry gets the sequence it was written with. -/
theorem chosenSequence_writtenAs {t : SequenceTracker} {se : ScannedIndexEntry}
    (hstored : StoredHonest se)
    (hnext : se.globalSequence = none → WrittenAs se.provenance (t.highest.elim 0 (· + 1))) :
    WrittenAs se.provenance (chosenSequence t se) := by
  unfold chosenSequence
  cases hseq : se.globalSequence with
  | some n => exact hstored n hseq
  | none =>
      rw [Option.getD_none, t.synthesizeNext_eq]
      exact hnext hseq

theorem numberEntries_writtenAs (scanned : List ScannedIndexEntry) :
    ∀ {t : SequenceTracker}, t.Fresh → (∀ se ∈ scanned, StoredHonest se) →
      GapFree t.highest scanned →
      ∀ e ∈ (numberEntries t scanned).1, WrittenAs e.provenance e.globalSequence := by
  induction scanned with
  | nil =>
      intro t _ _ _ e he
      cases he
  | cons se rest ih =>
      intro t ht hstored hgap e he
      have hchosen := chosenSequence_writtenAs (hstored se List.mem_cons_self) hgap.1
      rcases List.mem_cons.mp he with rfl | he
      · exact hchosen
      · refine ih (t := t.noteSeen (chosenSequence t se)) ?_ ?_ ?_ e he
        · intro hany
          cases hany
        · exact fun se' hse' => hstored se' (List.mem_cons_of_mem _ hse')
        · rw [SequenceTracker.noteSeen_highest ht, ← hchosen.written]
          exact hgap.2

/-! ### The plans of the restore paths -/

/-- A plan gives every entry its written sequence, in sequence order. -/
structure PlanHonest (entries : List IndexEntry) : Prop where
  written : ∀ e ∈ entries, WrittenAs e.provenance e.globalSequence
  sorted : entries.Pairwise fun a b => a.globalSequence ≤ b.globalSequence

/-- Sorting is all a plan needs besides its sequences. -/
theorem planHonest_sortBySequence (h : ∀ e ∈ entries, WrittenAs e.provenance e.globalSequence) :
    PlanHonest (sortBySequence entries) where
  written e he := h e (mem_sortBySequence.mp he)
  sorted := sortBySequence_sorted entries

/-- The condition on what a restore path reads, when it gets through. -/
def GapFreeScan (highest : Option Nat) : Except StoreError (List ScannedIndexEntry) → Prop
  | .ok scanned => GapFree highest scanned
  | .error _ => True

instance (highest : Option Nat) (scanned : Except StoreError (List ScannedIndexEntry)) :
    Decidable (GapFreeScan highest scanned) :=
  match scanned with
  | .ok entries => decidableGapFree highest entries
  | .error _ => inferInstanceAs (Decidable True)

theorem storedHonest_rules (h : FootersHonest segments) :
    ScanRules StoredHonest segments where
  frame seg _ p _ _ := by
    intro n hn
    cases hn
  row seg hseg rows hrows row hrow := by
    intro n hn
    cases hn
    exact h seg hseg rows hrows row hrow
  extensions se extensions hse := hse

theorem collectRebuildEntries_honest {activeId : Option Nat} (hfooters : FootersHonest segments)
    (hgap : GapFreeScan none (rebuildScan activeId segments))
    (h : collectRebuildEntries activeId segments = .ok (entries, hint)) : PlanHonest entries := by
  obtain ⟨scanned, hscanned, h⟩ := bindOk_iff.mp h
  rw [hscanned] at hgap
  cases h
  apply planHonest_sortBySequence
  apply numberEntries_writtenAs scanned
  · exact fun _ => rfl
  · exact (storedHonest_rules hfooters).rebuildScan activeId hscanned
  · exact hgap

/-- The highest sequence below the stored allocator. -/
def Snapshot.highest (snap : Snapshot) : Option Nat :=
  if 0 < snap.storedAllocator then some (snap.storedAllocator - 1) else none

def SnapshotHonest (snapshot : Option Snapshot) : Prop :=
  ∀ snap, snapshot = some snap → EntriesHonest snap.entries snap.storedAllocator

theorem snapshotPlan_honest {snap : Snapshot}
    (hsnap : EntriesHonest snap.entries snap.storedAllocator) (hfooters : FootersHonest segments)
    (hgap : GapFreeScan snap.highest (tailScan snap segments))
    (h : snapshotPlan snap segments = .ok (entries, hint)) : PlanHonest entries := by
  obtain ⟨tail, htail, h⟩ := bindOk_iff.mp h
  obtain ⟨scanned, hscanned, htail⟩ := bindOk_iff.mp htail
  rw [hscanned] at hgap
  cases htail
  cases h
  apply planHonest_sortBySequence
  intro e he
  rcases List.mem_append.mp he with he | he
  · exact (hsnap e he).1
  · refine numberEntries_writtenAs scanned ?_
      ((storedHonest_rules hfooters).tailScan snap hscanned) ?_ e he
    · intro hany
      simp only [SequenceTracker.fromFloor, decide_eq_false_iff_not] at hany ⊢
      omega
    · have hhighest : (SequenceTracker.fromFloor snap.storedAllocator).highest = snap.highest := by
        simp [SequenceTracker.highest, SequenceTracker.fromFloor, Snapshot.highest]
      rw [hhighest]
      exact hgap

/-- What a restore of these files reads meets the condition. -/
def RestoreGapFree (rt : Runtime) (snapshot : Option Snapshot) (segments : List Segment) : Prop :=
  match snapshot.filter (Snapshot.valid rt segments) with
  | some snap => GapFreeScan snap.highest (tailScan snap segments)
  | none => GapFreeScan none (rebuildScan none segments)

instance (rt : Runtime) (snapshot : Option Snapshot) (segments : List Segment) :
    Decidable (RestoreGapFree rt snapshot segments) :=
  match h : snapshot.filter (Snapshot.valid rt segments) with
  | some snap =>
      decidable_of_iff (GapFreeScan snap.highest (tailScan snap segments))
        (by rw [RestoreGapFree, h])
  | none =>
      decidable_of_iff (GapFreeScan none (rebuildScan none segments)) (by rw [RestoreGapFree, h])

theorem restorePlan_honest {snapshot : Option Snapshot} (hsnap : SnapshotHonest snapshot)
    (hfooters : FootersHonest segments) (hgap : RestoreGapFree rt snapshot segments)
    (h : restorePlan rt snapshot segments = .ok (entries, hint)) : PlanHonest entries := by
  unfold restorePlan at h
  unfold RestoreGapFree at hgap
  split at h
  · rename_i snap hvalid
    rw [hvalid] at hgap
    have hstored := hsnap snap (Option.filter_eq_some_iff.mp hvalid).1
    exact snapshotPlan_honest hstored hfooters hgap h
  · rename_i hvalid
    rw [hvalid] at hgap
    exact collectRebuildEntries_honest hfooters hgap h

/-! ### The restored index -/

theorem restoredIndex_honest {ranges : Option CancelledVisibilityRanges} {ix : StoreIndex}
    (h : PlanHonest entries) (hrestored : RestoredIndex entries hint ranges ix) :
    EntriesHonest ix.inserted ix.gate.allocated := by
  intro e he
  rw [hrestored.inserted] at he
  have he : e ∈ entries := List.mem_reverse.mp he
  rw [hrestored.gate.allocated]
  exact ⟨h.written e he, lt_nextSequence hint h.sorted he⟩

/-! ### The states of a store -/

/-- What holds of a store between any two steps. -/
def StateNumbered : StoreState → Prop
  | .opened core side => Numbered core ∧ SnapshotHonest side.snapshot
  | .closed segments _ side _ => FootersHonest segments ∧ SnapshotHonest side.snapshot

theorem snapshot_take_honest {ix : StoreIndex} (segments : List Segment)
    (h : EntriesHonest ix.inserted ix.gate.allocated) :
    SnapshotHonest (some (.take rt ix segments)) := by
  rintro snap ⟨⟩ e he
  obtain ⟨e₀, he₀, rfl⟩ := List.mem_map.mp he
  exact h e₀ (List.mem_of_mem_filter (mem_sortBySequence.mp he₀))

/-- What the rebuild inside a compaction reads. -/
def compactionScan (cfg : LifecycleConfig) (rt : Runtime) (strategy : CompactionStrategy)
    (core : WriterCore) : Except StoreError (List ScannedIndexEntry) := do
  let chunks ← copiedChunks rt strategy core.sealed
  rebuildScan (some core.active.id)
    [mergedSegment cfg.store ((core.sealed.head?.map (·.id)).getD 0) chunks, core.active]

theorem swapCompacted_numbered {cfg : LifecycleConfig} {strategy : CompactionStrategy}
    {core : WriterCore} {merged : Segment} {fresh : StoreIndex} (hcore : Numbered core)
    (hgap : GapFreeScan none (compactionScan cfg rt strategy core))
    (h : compactionResult cfg rt strategy core = .ok (merged, fresh)) :
    Numbered (swapCompacted core merged fresh) := by
  obtain ⟨chunks, entries, hint, hchunks, hmerged, hplan, hrestored⟩ := compactionResult_restored h
  have hscan : compactionScan cfg rt strategy core =
      rebuildScan (some core.active.id) [merged, core.active] := by
    unfold compactionScan
    rw [hchunks, hmerged]
    rfl
  rw [hscan] at hgap
  have hfooters : FootersHonest ([merged] ++ [core.active]) := by
    rw [footersHonest_append, footersHonest_singleton]
    refine ⟨?_, (footersHonest_append.mp hcore.footers).2⟩
    intro rows hrows
    rw [hmerged] at hrows
    cases hrows
  have hplanned := collectRebuildEntries_honest hfooters hgap hplan
  exact ⟨restoredIndex_honest hplanned hrestored, hfooters, hcore.collected⟩

theorem cutSegment_footersHonest {kept torn : Nat} {core : WriterCore} (hcore : Numbered core) :
    FootersHonest (core.sealed ++ [cutSegment kept torn core.active]) := by
  have hfooters := hcore.footers
  rw [WriterCore.segments, footersHonest_append, footersHonest_singleton] at hfooters
  rw [footersHonest_append, footersHonest_singleton]
  refine ⟨hfooters.1, ?_⟩
  intro rows hrows
  simp only [cutSegment] at hrows
  split at hrows
  · exact hfooters.2 rows hrows
  · cases hrows

/-- Compactions and opens read their files without a gap. -/
def numberedGuards (cfg : LifecycleConfig) (rt : Runtime) : LifecycleGuards where
  append _ := True
  compact core strategy := GapFreeScan none (compactionScan cfg rt strategy core)
  close _ _ := True
  crash _ _ _ := True
  reopen segments _ side := RestoreGapFree rt side.snapshot segments

theorem numberedLife (cfg : LifecycleConfig) (rt : Runtime) :
    LifecycleRules cfg rt (fun core side => Numbered core ∧ SnapshotHonest side.snapshot)
      (fun segments _ side _ => FootersHonest segments ∧ SnapshotHonest side.snapshot)
      (numberedGuards cfg rt) where
  writer side := (writerRules_numbered cfg.store rt).and (.const _)
  watermark _ h := ⟨h.1.transfer rfl (Nat.le_refl _) rfl rfl rfl, h.2⟩
  beginFence h := by
    refine ⟨h.1.transfer rfl ?_ rfl rfl rfl, h.2⟩
    exact Nat.le_of_eq (SequenceGate.beginFence_allocated _).symm
  swap h hgap hresult := ⟨swapCompacted_numbered h.1 hgap hresult, h.2⟩
  sweep h := ⟨h.1.transfer rfl (Nat.le_refl _) rfl rfl rfl, h.2⟩
  flush h := h
  snapshot h := ⟨h.1, snapshot_take_honest _ h.1.entries⟩
  closed _ _ _ h := ⟨h.1.footers, h.2⟩
  crash h _ := ⟨cutSegment_footersHonest h.1, h.2⟩
  spawn h hgap hindex := by
    obtain ⟨entries, hint, hplan, hrestored⟩ := openIndex_restored hindex
    have hplanned := restorePlan_honest h.2 h.1 hgap hplan
    refine ⟨⟨⟨restoredIndex_honest hplanned hrestored, ?_, fun row hrow => by cases hrow⟩, h.2⟩,
      trivial⟩
    rw [WriterCore.segments, footersHonest_append, footersHonest_singleton]
    exact ⟨h.1, fun rows hrows => by cases hrows⟩
  abandon _ h := ⟨h.1.footers, h.2⟩

/-! ### Whole lives -/

/-- Where a step numbers events anew, the ones without a stored sequence follow each other
without a gap. -/
def RenumbersExactly (cfg : LifecycleConfig) (rt : Runtime) : StoreState → LifecycleStep → Prop
  | .opened core _, .compact _ strategy flt =>
      GapFreeScan none (compactionScan cfg rt strategy
        (syncOutcome { Faults.none with sync := flt.sync } core).2)
  | .closed segments _ side _, .reopen _ => RestoreGapFree rt side.snapshot segments
  | _, _ => True

/-- Every indexed event has the sequence its receipt reported, below the allocator. -/
def SequencesStable (st : StoreState) : Prop :=
  ∀ core, st.core? = some core → EntriesHonest core.index.inserted core.index.gate.allocated

theorem lifecycleStep_numbered (cfg : LifecycleConfig) (rt : Runtime) (st : StoreState)
    (step : LifecycleStep) (h : StateNumbered st) (hstep : RenumbersExactly cfg rt st step) :
    StateNumbered (lifecycleStep cfg rt st step) := by
  have hguard : (numberedGuards cfg rt).Allows st step := by
    cases st with
    | opened core side =>
        cases step with
        | compact minSegments strategy flt => exact hstep
        | writer step => exact fun _ => trivial
        | beginFence => trivial
        | close inputs => trivial
        | crash kept torn => trivial
        | reopen inputs => trivial
    | closed segments ranges side fences =>
        cases step with
        | reopen inputs => exact hstep
        | writer step => trivial
        | compact minSegments strategy flt => trivial
        | beginFence => trivial
        | close inputs => trivial
        | crash kept torn => trivial
  have hnext := (numberedLife cfg rt).lifecycleStep st step (by cases st <;> exact h) hguard
  generalize lifecycleStep cfg rt st step = st' at hnext
  cases st' <;> exact hnext

/-- In every life of a store in which each compaction and each open meets the condition,
every event keeps the sequence it was acknowledged with and the allocator stays above. -/
theorem sequences_stable_of_gap_free (cfg : LifecycleConfig) (rt : Runtime)
    (steps : List LifecycleStep)
    (h : Guarded (lifecycleStep cfg rt) (RenumbersExactly cfg rt) .blank steps) :
    SequencesStable (run (lifecycleStep cfg rt) .blank steps) := by
  have hblank : StateNumbered .blank :=
    ⟨fun seg hseg => (by cases hseg), fun snap hsnap => by cases hsnap⟩
  have hfinal := run_invariant (lifecycleStep_numbered cfg rt) steps .blank hblank h
  intro core hcore
  generalize run (lifecycleStep cfg rt) .blank steps = st at hfinal hcore
  cases st with
  | opened core' side =>
      cases hcore
      exact hfinal.1.entries
  | closed segments ranges side fences => cases hcore

/-! ### A gap -/

instance (entries : List IndexEntry) (allocated : Nat) :
    Decidable (EntriesHonest entries allocated) :=
  inferInstanceAs (Decidable (∀ e ∈ entries, _))

instance (st : StoreState) : Decidable (SequencesStable st) :=
  inferInstanceAs (Decidable (∀ core ∈ st.core?,
    EntriesHonest core.index.inserted core.index.gate.allocated))

instance (cfg : LifecycleConfig) (rt : Runtime) (st : StoreState) (step : LifecycleStep) :
    Decidable (RenumbersExactly cfg rt st step) :=
  match st, step with
  | .opened core _, .compact _ strategy flt =>
      inferInstanceAs (Decidable (GapFreeScan none (compactionScan cfg rt strategy
        (syncOutcome { Faults.none with sync := flt.sync } core).2)))
  | .closed segments _ side _, .reopen _ =>
      inferInstanceAs (Decidable (RestoreGapFree rt side.snapshot segments))
  | .opened .., .beginFence | .opened .., .writer _ | .opened .., .close _ | .opened .., .crash ..
  | .opened .., .reopen _ | .closed .., .beginFence | .closed .., .writer _
  | .closed .., .compact .. | .closed .., .close _ | .closed .., .crash .. =>
      inferInstanceAs (Decidable True)

/-- An append, a crash that keeps everything, and an open that rebuilds. -/
def appendCrashReopen (eventId : Nat) : List LifecycleStep :=
  [.writer (.command .main ⟨.append (plainRequest "a" eventId 4) 1, .none⟩),
    .crash 100 0, .reopen ⟨2, [], 0, .none⟩]

/-- The disk refuses a batch of two before the append: its reserved sequences are gone. -/
def burnedRun : List LifecycleStep :=
  .reopen ⟨1, [], 0, .none⟩ ::
    .writer (.command .main ⟨.appendBatch 0 [plainItem "a" 10 0, plainItem "a" 11 0] 0,
      { Faults.none with write := fun _ => some 0 }⟩) :: appendCrashReopen 12

/-- The event acknowledged with sequence 3 comes back with sequence 1. -/
theorem burned_sequences_shift :
    ¬ SequencesStable (run (lifecycleStep .small .unsigned) .blank burnedRun) := by
  decide +kernel

/-- Three lives, the second with a compaction, and no gap. -/
def gapFreeRun : List LifecycleStep :=
  .reopen ⟨1, [], 0, .none⟩ :: appendCrashReopen 12 ++
    .compact 1 .merge .none :: appendCrashReopen 13

theorem gapFreeRun_stable :
    Guarded (lifecycleStep .small .unsigned) (RenumbersExactly .small .unsigned) .blank
        gapFreeRun ∧
      SequencesStable (run (lifecycleStep .small .unsigned) .blank gapFreeRun) := by
  have h : Guarded (lifecycleStep .small .unsigned) (RenumbersExactly .small .unsigned) .blank
      gapFreeRun := by decide +kernel
  exact ⟨h, sequences_stable_of_gap_free .small .unsigned gapFreeRun h⟩

end Batpak.Store
