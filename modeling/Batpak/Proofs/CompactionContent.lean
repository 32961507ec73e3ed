/-
Module: Batpak.Proofs.CompactionContent
Purpose: What a compaction puts into the merged file: the events of its sources that the
  strategy retains, rewritten, in file order.
Trusted boundary: none
Main exports: copiedChunks_events, copiedChunks_frames
-/
import Batpak.Store.DataDir

namespace Batpak.Store

open Batpak.Util

variable {chunks : List Chunk} {frames : List Frame} {sources : List Segment} {rt : Runtime}
  {f : Frame} {strategy : CompactionStrategy} {length : Nat}

/-- The event frames of a chunk list, batch markers left out. -/
def eventFrames (chunks : List Chunk) : List Frame :=
  chunks.filterMap fun
    | .frame f _ => if f.kind.isBatchMarker then none else some f
    | .torn _ => none

/-- The event frames of several files, in order. -/
def sourceEvents (sources : List Segment) : List Frame :=
  sources.flatMap fun seg => eventFrames seg.chunks

@[simp] theorem eventFrames_nil : eventFrames [] = [] := rfl

@[simp] theorem eventFrames_append (xs ys : List Chunk) :
    eventFrames (xs ++ ys) = eventFrames xs ++ eventFrames ys :=
  List.filterMap_append ..

theorem fullScanChunks_ok {toEof : Bool} {segmentId offset : Nat}
    (h : fullScanChunks toEof segmentId offset chunks = .ok frames) :
    frames = eventFrames chunks := by
  induction chunks generalizing offset frames with
  | nil =>
      cases h
      rfl
  | cons c rest ih =>
      cases c with
      | torn length =>
          unfold fullScanChunks at h
          split at h
          · exact ih h
          · split at h
            · rename_i hlast
              cases h
              rw [List.isEmpty_iff] at hlast
              rw [hlast.1]
              rfl
            · cases h
      | frame f length =>
          unfold fullScanChunks at h
          split at h
          · cases h
          · cases hrest : fullScanChunks toEof segmentId (offset + length) rest with
            | error e =>
                rw [hrest] at h
                cases h
            | ok later =>
                rw [hrest] at h
                cases h
                rw [ih hrest]
                by_cases hmarker : f.kind.isBatchMarker
                · simp [eventFrames, hmarker]
                · simp [eventFrames, hmarker]

theorem scanSealedEntries_ok (h : scanSealedEntries sources = .ok frames) :
    frames = sourceEvents sources := by
  induction sources generalizing frames with
  | nil =>
      cases h
      rfl
  | cons seg rest ih =>
      unfold scanSealedEntries at h
      obtain ⟨found, hfound, h⟩ := bindOk_iff.mp h
      obtain ⟨later, hlater, h⟩ := bindOk_iff.mp h
      cases h
      rw [fullScanChunks_ok hfound, ih hlater]
      rfl

theorem encodeScanned_ok (hkinds : ∀ f ∈ frames, f.kind.isBatchMarker = false)
    (h : encodeScanned rt frames = .ok chunks) : eventFrames chunks = frames := by
  induction frames generalizing chunks with
  | nil =>
      cases h
      rfl
  | cons f rest ih =>
      unfold encodeScanned at h
      cases hlen : frameEncode rt false f with
      | error e =>
          rw [hlen] at h
          cases h
      | ok length =>
          cases hrest : encodeScanned rt rest with
          | error e =>
              rw [hlen, hrest] at h
              cases h
          | ok later =>
              rw [hlen, hrest] at h
              cases h
              have htail := ih (fun g hg => hkinds g (List.mem_cons_of_mem _ hg)) hrest
              simpa [eventFrames, hkinds f List.mem_cons_self] using htail

theorem eventFrames_kind (h : f ∈ eventFrames chunks) :
    f.kind.isBatchMarker = false := by
  obtain ⟨c, -, hc⟩ := List.mem_filterMap.mp h
  cases c with
  | torn n => cases hc
  | frame g n =>
      by_cases hmarker : g.kind.isBatchMarker
      · simp [hmarker] at hc
      · simp only [hmarker, Bool.false_eq_true, if_false, Option.some.injEq] at hc
        rw [← hc]
        simpa using hmarker

namespace CompactionStrategy

theorem rewrite_kind (strategy : CompactionStrategy) (h : f.kind.isBatchMarker = false) :
    (strategy.rewrite f).kind.isBatchMarker = false := by
  cases strategy with
  | merge => exact h
  | retention predicate => exact h
  | tombstone predicate =>
      by_cases hkept : predicate f = true
      · simpa [rewrite, hkept] using h
      · simp [rewrite, hkept, EventKind.isBatchMarker, EventKind.tombstone,
          EventKind.systemBatchBegin, EventKind.systemBatchCommit]

/-- Besides the kind a rewrite changes nothing. -/
theorem rewrite_provenance (strategy : CompactionStrategy) (f : Frame) :
    (strategy.rewrite f).provenance = f.provenance := by
  cases strategy with
  | merge => rfl
  | retention predicate => rfl
  | tombstone predicate =>
      unfold rewrite
      dsimp only
      split <;> rfl

end CompactionStrategy

theorem sourceEvents_kind (h : f ∈ sourceEvents sources) :
    f.kind.isBatchMarker = false := by
  obtain ⟨seg, -, hf⟩ := List.mem_flatMap.mp h
  exact eventFrames_kind hf

theorem eventFrames_flatMap_chunks (sources : List Segment) :
    eventFrames (sources.flatMap (·.chunks)) = sourceEvents sources := by
  induction sources with
  | nil => rfl
  | cons seg rest ih =>
      rw [List.flatMap_cons, eventFrames_append, ih]
      rfl

/-- The strategies that read the sources event by event. -/
theorem rewritten_events
    (h : (do
      let frames ← scanSealedEntries sources
      encodeScanned rt ((frames.filter strategy.retains).map strategy.rewrite)) = .ok chunks) :
    eventFrames chunks = ((sourceEvents sources).filter strategy.retains).map strategy.rewrite := by
  obtain ⟨frames, hframes, hencoded⟩ := bindOk_iff.mp h
  cases scanSealedEntries_ok hframes
  apply encodeScanned_ok _ hencoded
  intro f hf
  obtain ⟨g, hg, rfl⟩ := List.mem_map.mp hf
  exact strategy.rewrite_kind (sourceEvents_kind (List.mem_of_mem_filter hg))

/-- The events of the merged file. -/
theorem copiedChunks_events (h : copiedChunks rt strategy sources = .ok chunks) :
    eventFrames chunks = ((sourceEvents sources).filter strategy.retains).map strategy.rewrite := by
  cases strategy with
  | merge =>
      cases h
      have hall : (sourceEvents sources).filter CompactionStrategy.merge.retains =
          sourceEvents sources := List.filter_eq_self.mpr fun f _ => rfl
      rw [eventFrames_flatMap_chunks, hall]
      exact (List.map_id' _).symm
  | retention predicate => exact rewritten_events h
  | tombstone predicate => exact rewritten_events h

theorem mem_encodeScanned (h : encodeScanned rt frames = .ok chunks) (hf : .frame f length ∈ chunks) :
    f ∈ frames := by
  induction frames generalizing chunks with
  | nil =>
      cases h
      cases hf
  | cons g rest ih =>
      unfold encodeScanned at h
      obtain ⟨glength, -, h⟩ := bindOk_iff.mp h
      obtain ⟨later, hlater, h⟩ := bindOk_iff.mp h
      cases h
      rcases List.mem_cons.mp hf with hf | hf
      · cases hf
        exact List.mem_cons_self
      · exact List.mem_cons_of_mem _ (ih hlater hf)

theorem mem_frames_of_sourceEvents (h : f ∈ sourceEvents sources) :
    ∃ seg ∈ sources, f ∈ seg.frames := by
  obtain ⟨seg, hseg, hf⟩ := List.mem_flatMap.mp h
  obtain ⟨c, hc, hcf⟩ := List.mem_filterMap.mp hf
  refine ⟨seg, hseg, List.mem_filterMap.mpr ⟨c, hc, ?_⟩⟩
  cases c with
  | torn n => cases hcf
  | frame g n =>
      by_cases hmarker : g.kind.isBatchMarker
      · simp [hmarker] at hcf
      · simpa [hmarker] using hcf

theorem rewritten_frames
    (h : (do
      let frames ← scanSealedEntries sources
      encodeScanned rt ((frames.filter strategy.retains).map strategy.rewrite)) = .ok chunks)
    (hf : .frame f length ∈ chunks) :
    ∃ seg ∈ sources, ∃ g ∈ seg.frames, f = strategy.rewrite g := by
  obtain ⟨frames, hframes, hencoded⟩ := bindOk_iff.mp h
  cases scanSealedEntries_ok hframes
  obtain ⟨g, hg, rfl⟩ := List.mem_map.mp (mem_encodeScanned hencoded hf)
  obtain ⟨seg, hseg, hframe⟩ := mem_frames_of_sourceEvents (List.mem_of_mem_filter hg)
  exact ⟨seg, hseg, g, hframe, rfl⟩

/-- A frame of the merged file is a frame of one of the sources, up to its kind. -/
theorem copiedChunks_frames (h : copiedChunks rt strategy sources = .ok chunks)
    (hf : .frame f length ∈ chunks) :
    ∃ seg ∈ sources, ∃ g ∈ seg.frames, f = strategy.rewrite g := by
  cases strategy with
  | merge =>
      cases h
      obtain ⟨seg, hseg, hf⟩ := List.mem_flatMap.mp hf
      exact ⟨seg, hseg, f, List.mem_filterMap.mpr ⟨_, hf, rfl⟩, rfl⟩
  | retention predicate => exact rewritten_frames h hf
  | tombstone predicate => exact rewritten_frames h hf

end Batpak.Store
