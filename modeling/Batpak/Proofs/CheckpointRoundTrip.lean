/-
Module: Batpak.Proofs.CheckpointRoundTrip
Purpose: A checkpoint that was written loads as the index it was written for, but for a
  causation id of zero.
Trusted boundary: none
Main exports: checkpoint_round_trip, checkpoint_drops_zero_causation
-/
import Batpak.Proofs.SnapshotRules
import Batpak.Store.Checkpoint

namespace Batpak.Store

open Batpak.Util

variable {watermark : WatermarkInfo} {data : CheckpointData}

/-! ### The file -/

section File

variable {crc : Crc32} {body : Bytes}

theorem length_checkpointFile : (checkpointFile crc body).length = 12 + body.length := by
  simp [checkpointFile, checkpointMagic, FixedWidth.width]
  omega

theorem readCheckpointFile_checkpointFile (crc : Crc32) (body : Bytes) :
    readCheckpointFile crc (.ok (some (checkpointFile crc body))) = .loaded ⟨6, body⟩ := by
  have hmagic : (checkpointFile crc body).take 6 = checkpointMagic := List.take_left' rfl
  have hversion : (checkpointFile crc body).drop 6 =
      putLe checkpointVersion ++ (putLe (crc.hash body) ++ body) := List.drop_left' rfl
  have hcrc : (checkpointFile crc body).drop 8 = putLe (crc.hash body) ++ body := by
    rw [checkpointFile, ← List.append_assoc]
    apply List.drop_left'
    simp [checkpointMagic, FixedWidth.width]
  have hbody : (checkpointFile crc body).drop checkpointHeaderLen = body := by
    rw [checkpointFile, ← List.append_assoc, ← List.append_assoc]
    apply List.drop_left'
    simp [checkpointMagic, checkpointHeaderLen, FixedWidth.width]
  unfold readCheckpointFile
  dsimp only
  rw [if_neg (by rw [length_checkpointFile, checkpointHeaderLen]; omega),
    if_neg (not_not_intro hmagic)]
  simp only [hversion, hcrc, hbody, getLe_putLe]
  rw [if_neg (Nat.lt_irrefl _), if_neg (not_not_intro rfl)]
  rfl

end File

/-! ### The entries -/

theorem CheckpointEntry.typed_ofIndexEntry {e : InternedEntry} (h : e.Typed) :
    (CheckpointEntry.ofIndexEntry e).Typed where
  eventId := h.eventId
  correlationId := h.correlationId
  causationId := h.causationId
  entityId := h.entityId
  scopeId := h.scopeId
  kind := h.kind
  wallMs := h.wallMs
  clock := h.clock
  dagLane := h.dagLane
  dagDepth := h.dagDepth
  prevHash := h.prevHash
  eventHash := h.eventHash
  segmentId := h.segmentId
  offset := h.offset
  length := h.length
  globalSequence := h.globalSequence
  receiptExtensions := h.receiptExtensions

theorem toIndexEntry_ofIndexEntry {strings : List String} {e rebuilt : InternedEntry}
    (hresolves : e.Resolves strings)
    (h : (CheckpointEntry.ofIndexEntry e).toIndexEntry strings = .ok rebuilt) :
    rebuilt = e.reloaded := by
  obtain ⟨row, hrow, hsame⟩ := bindOk_iff.mp h
  cases hsame
  obtain ⟨-, rfl⟩ := (toIndexEntry_ok_iff hresolves.1 hresolves.2).mp hrow
  rfl

theorem checkpointEntriesToIndexEntries_ok {strings : List String}
    {entries rebuilt : List InternedEntry} (hresolves : ∀ e ∈ entries, e.Resolves strings)
    (h : checkpointEntriesToIndexEntries (entries.map CheckpointEntry.ofIndexEntry) strings =
      .ok rebuilt) : rebuilt = entries.map InternedEntry.reloaded := by
  rw [checkpointEntriesToIndexEntries, List.mapM_map] at h
  have hall : rebuilt.map id = entries.map InternedEntry.reloaded :=
    map_eq_of_mapM_ok_mem h fun e he rebuilt hok => toIndexEntry_ofIndexEntry (hresolves e he) hok
  rwa [List.map_id] at hall

theorem insertionSort_ofIndexEntry (index : InternedIndex) :
    (index.entries.map CheckpointEntry.ofIndexEntry).insertionSort
        (fun a b => a.globalSequence ≤ b.globalSequence) =
      index.bySequence.map CheckpointEntry.ofIndexEntry := by
  have hsort := List.map_insertionSort
    (fun a b : InternedEntry => a.entry.globalSequence ≤ b.entry.globalSequence)
    (fun a b : CheckpointEntry => a.globalSequence ≤ b.globalSequence)
    CheckpointEntry.ofIndexEntry index.entries fun _ _ _ _ => Iff.rfl
  exact hsort.symm

/-! ### The round trip -/

/-- The snapshot is the index, the watermark and the counters it was written for. -/
structure CheckpointReturns (index : InternedIndex) (watermark : WatermarkInfo)
    (counts : ReservedKindFallbackStats) (snapshot : LoadedCheckpointSnapshot) : Prop where
  entries : snapshot.entries = index.bySequence.map InternedEntry.reloaded
  internerStrings : snapshot.internerStrings = index.interner.fullSnapshot
  resolves : ∀ e ∈ snapshot.entries, e.Resolves snapshot.internerStrings
  watermark : snapshot.watermark = watermark
  storedAllocator : snapshot.storedAllocator = index.globalSequence
  routing : snapshot.routing = RoutingSummary.fromSortedEntries (snapshot.entries.map (·.entry))
    (recommendedRestoreChunkCount index.entries.length)
  counts : snapshot.cumulativeReservedKindFallbacks = counts
  hydrated : snapshot.receiptExtensionsHydrated = true

/-- What a checkpoint of an index holds. -/
theorem checkpointData_ok {index : InternedIndex} {counts : ReservedKindFallbackStats}
    (h : checkpointData index watermark counts = .ok data) :
    rebuildCurrentEntries data = .ok (index.bySequence.map InternedEntry.reloaded) ∧
    data = {
      globalSequence := index.globalSequence
      watermarkSegmentId := watermark.watermarkSegmentId
      watermarkOffset := watermark.watermarkOffset
      internerStrings := index.interner.fullSnapshot
      routing := RoutingSummary.fromSortedEntries
        ((index.bySequence.map InternedEntry.reloaded).map (·.entry))
        (recommendedRestoreChunkCount index.entries.length)
      reservedKindFallbacks := counts
      entries := index.bySequence.map CheckpointEntry.ofIndexEntry } := by
  unfold checkpointData at h
  rw [insertionSort_ofIndexEntry] at h
  obtain ⟨rebuilt, hrebuilt, h⟩ := bindOk_iff.mp h
  cases h
  have hentries := checkpointEntriesToIndexEntries_ok index.resolves_bySequence hrebuilt
  rw [hentries] at hrebuilt ⊢
  rw [List.length_map, index.length_bySequence]
  exact ⟨hrebuilt, rfl⟩

theorem fits_checkpointData {index : InternedIndex} {counts : ReservedKindFallbackStats}
    (typed : index.Typed) (hsegment : watermark.watermarkSegmentId < 2 ^ 64)
    (hoffset : watermark.watermarkOffset < 2 ^ 64) (hcounts : fallbackStatsSerde.Fits counts)
    (h : checkpointData index watermark counts = .ok data) : checkpointDataSerde.Fits data := by
  obtain ⟨-, rfl⟩ := checkpointData_ok h
  refine ⟨typed.globalSequence, hsegment, hoffset, ?routing, hcounts, ?entries⟩
  case routing =>
    apply fits_fromSortedEntries
    · rw [List.length_map, List.length_map, index.length_bySequence]
      exact typed.count
    · intro e he
      obtain ⟨reloaded, hreloaded, rfl⟩ := List.mem_map.mp he
      obtain ⟨original, horiginal, rfl⟩ := List.mem_map.mp hreloaded
      exact (typed.entries original (InternedIndex.mem_bySequence.mp horiginal)).globalSequence
    · rw [recommendedRestoreChunkCount]
      omega
  case entries =>
    intro e he
    obtain ⟨original, horiginal, rfl⟩ := List.mem_map.mp he
    exact CheckpointEntry.typed_ofIndexEntry
      (typed.entries original (InternedIndex.mem_bySequence.mp horiginal))

theorem loadCheckpointSnapshot_current {r : SegmentReader} {dir : ColdStartDir}
    {file : Except String (Option Bytes)} {body : Bytes} {entries : List InternedEntry}
    (hread : readCheckpointFile r.crc file = .loaded ⟨6, body⟩)
    (hdecode : decodeCheckpointData r 6 body = some data)
    (hwatermark : validateCheckpointWatermark dir data = .loaded watermark)
    (hrebuild : rebuildCurrentEntries data = .ok entries) :
    loadCheckpointSnapshot r dir file = .loaded {
      entries
      internerStrings := data.internerStrings
      watermark
      storedAllocator := data.globalSequence
      routing := data.routing
      cumulativeReservedKindFallbacks := data.reservedKindFallbacks
      receiptExtensionsHydrated := true } := by
  have hcurrent : decide (6 = checkpointVersion.toNat) = true := rfl
  simp only [loadCheckpointSnapshot, hread, FileLoad.bind, hdecode, hwatermark, hcurrent, if_true,
    hrebuild]

theorem loadCheckpointSnapshot_written {r : SegmentReader} {dir : ColdStartDir}
    {index : InternedIndex} {counts : ReservedKindFallbackStats} {file : Bytes}
    (typed : index.Typed) (hsegment : watermark.watermarkSegmentId < 2 ^ 64)
    (hoffset : watermark.watermarkOffset < 2 ^ 64) (hcounts : fallbackStatsSerde.Fits counts)
    (hwrite : writeCheckpoint r index watermark counts = .ok file)
    (hdir : validateWatermarkSegment dir watermark.watermarkSegmentId watermark.watermarkOffset =
      .ok ()) :
    ∃ snapshot, loadCheckpointSnapshot r dir (.ok (some file)) = .loaded snapshot ∧
      CheckpointReturns index watermark counts snapshot := by
  obtain ⟨data, hdata, hwrite⟩ := bindOk_iff.mp hwrite
  obtain ⟨body, hbody, hfile⟩ := bindOk_iff.mp hwrite
  cases hfile
  have hread := r.codec.read_write _ _ (mapError_ok_iff.mp hbody)
  have hfits := fits_checkpointData typed hsegment hoffset hcounts hdata
  obtain ⟨hrebuild, hfields⟩ := checkpointData_ok hdata
  have hdecode : decodeCheckpointData r 6 body = some data := by
    unfold decodeCheckpointData
    rw [hread]
    exact checkpointDataSerde.de_ser data hfits
  have hwatermark : validateCheckpointWatermark dir data = .loaded watermark := by
    rw [validateCheckpointWatermark, hfields, hdir]
  refine ⟨_, loadCheckpointSnapshot_current (readCheckpointFile_checkpointFile r.crc body) hdecode
    hwatermark hrebuild, ?_⟩
  subst hfields
  constructor
  case entries => rfl
  case internerStrings => rfl
  case resolves =>
    intro e he
    obtain ⟨original, horiginal, rfl⟩ := List.mem_map.mp he
    exact (index.resolves_bySequence original horiginal).reloaded
  case watermark => rfl
  case storedAllocator => rfl
  case routing => rfl
  case counts => rfl
  case hydrated => rfl

/-- A checkpoint that was written is loaded again, as long as the segment of its watermark is
there. -/
theorem checkpoint_round_trip (r : SegmentReader) (dir : ColdStartDir) (index : InternedIndex)
    (watermark : WatermarkInfo) (counts : ReservedKindFallbackStats) (file : Bytes)
    (typed : index.Typed) (hsegment : watermark.watermarkSegmentId < 2 ^ 64)
    (hoffset : watermark.watermarkOffset < 2 ^ 64) (hcounts : fallbackStatsSerde.Fits counts)
    (hwrite : writeCheckpoint r index watermark counts = .ok file)
    (hdir : validateWatermarkSegment dir watermark.watermarkSegmentId watermark.watermarkOffset =
      .ok ()) :
    ∃ snapshot, loadCheckpointSnapshot r dir (.ok (some file)) = .loaded snapshot ∧
      CheckpointReturns index watermark counts snapshot :=
  loadCheckpointSnapshot_written typed hsegment hoffset hcounts hwrite hdir

/-! ### An index of two events -/

namespace Snapshot

theorem checkpoint_round_trip_two_events :
    ∃ file snapshot, writeCheckpoint reader (index 5) ⟨1, 60⟩ .none = .ok file ∧
      loadCheckpointSnapshot reader dir (.ok (some file)) = .loaded snapshot ∧
      CheckpointReturns (index 5) ⟨1, 60⟩ .none snapshot := by
  obtain ⟨file, hfile⟩ : ∃ file, writeCheckpoint reader (index 5) ⟨1, 60⟩ .none = .ok file :=
    isOk_iff.mp (by decide +kernel)
  have hreturns := checkpoint_round_trip reader dir (index 5) ⟨1, 60⟩ .none file
    (typed_index (by decide)) (by decide) (by decide) fits_noFallbacks hfile rfl
  obtain ⟨snapshot, hload, hsame⟩ := hreturns
  exact ⟨file, snapshot, hfile, hload, hsame⟩

/-- The entries that a written checkpoint loads. -/
def reloadedEntries (ix : InternedIndex) : List InternedEntry :=
  match writeCheckpoint reader ix ⟨1, 60⟩ .none with
  | .error _ => []
  | .ok file =>
      match loadCheckpointSnapshot reader dir (.ok (some file)) with
      | .loaded snapshot => snapshot.entries
      | _ => []

/-- An event caused by the id of zero comes back as one without a cause. -/
theorem checkpoint_drops_zero_causation :
    ((index 0).bySequence.map fun e => e.entry.causationId) = [none, some 0] ∧
      ((reloadedEntries (index 0)).map fun e => e.entry.causationId) = [none, none] := by
  obtain ⟨file, hfile⟩ : ∃ file, writeCheckpoint reader (index 0) ⟨1, 60⟩ .none = .ok file :=
    isOk_iff.mp (by decide +kernel)
  obtain ⟨snapshot, hload, hreturns⟩ := @loadCheckpointSnapshot_written ⟨1, 60⟩ reader dir
    (index 0) .none file (typed_index (by decide)) (by decide) (by decide) fits_noFallbacks hfile
    rfl
  simp only [reloadedEntries, hfile, hload, hreturns.entries]
  decide +kernel

end Snapshot

end Batpak.Store
