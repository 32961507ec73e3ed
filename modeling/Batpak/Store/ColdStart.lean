/-
Module: Batpak.Store.ColdStart
Purpose: The restore paths of an open: the rebuild from segment files, the snapshot with its tail
  scan, and the index both end in.
Trusted boundary: footers and snapshots that decode are the ones that were written
Main exports: SequenceTracker, entryFromScan
-/
import Batpak.Store.Recovery
import Batpak.Store.Writer

namespace Batpak.Store

open Batpak.Util

/-! ### Numbering -/

structure SequenceTracker where
  maxSeen : Nat
  insertedAny : Bool
  deriving Repr, Inhabited, DecidableEq

namespace SequenceTracker

def initial : SequenceTracker :=
  ⟨0, false⟩

/-- The tracker of a tail scan starts below the stored allocator. -/
def fromFloor (allocatorFloor : Nat) : SequenceTracker :=
  ⟨allocatorFloor - 1, 0 < allocatorFloor⟩

def synthesizeNext (t : SequenceTracker) : Nat :=
  if t.insertedAny then t.maxSeen + 1 else 0

def noteSeen (t : SequenceTracker) (globalSequence : Nat) : SequenceTracker :=
  ⟨max t.maxSeen globalSequence, true⟩

end SequenceTracker

def entryFromScan (se : ScannedIndexEntry) (globalSequence : Nat) : IndexEntry where
  eventId := se.eventId
  correlationId := se.correlationId
  causationId := se.causationId.filter (· ≠ 0)
  coord := se.coord
  kind := se.kind
  wallMs := se.wallMs
  clock := se.clock
  dagLane := se.dagLane
  dagDepth := se.dagDepth
  hashChain := se.hashChain
  diskPos := se.diskPos
  globalSequence := globalSequence
  receiptExtensions := se.receiptExtensions
  provenance := se.provenance

/-- The stored sequence, else the next one of the running counter. -/
def chosenSequence (t : SequenceTracker) (se : ScannedIndexEntry) : Nat :=
  se.globalSequence.getD t.synthesizeNext

def numberEntries : SequenceTracker → List ScannedIndexEntry →
    List IndexEntry × SequenceTracker
  | t, [] => ([], t)
  | t, se :: rest =>
      let sequence := chosenSequence t se
      let (entries, t') := numberEntries (t.noteSeen sequence) rest
      (entryFromScan se sequence :: entries, t')

def sortBySequence (entries : List IndexEntry) : List IndexEntry :=
  entries.insertionSort fun a b => a.globalSequence ≤ b.globalSequence

/-! ### Rebuild from segments -/

/-- Extensions of the frame at a place, when there is such a frame. -/
def readReceiptExtensions (segments : List Segment) (pos : DiskPos) : Option Extensions :=
  (segments.find? fun seg => seg.id == pos.segmentId).bind fun seg =>
    (seg.located.find? fun p => p.2 == pos).map fun p => p.1.receiptExtensions

/-- Footer rows of one segment with the extensions read back from the frames. -/
def scannedEntriesFromSidxFooter (segments : List Segment) (seg : Segment) :
    Except StoreError (List ScannedIndexEntry) :=
  match seg.footer with
  | none => .error (.serialization "sealed segment missing SIDX footer during parallel rebuild")
  | some rows =>
      (footerEntries seg.id rows).mapM fun se =>
        match readReceiptExtensions segments se.diskPos with
        | some extensions => .ok { se with receiptExtensions := extensions }
        | none => .error (.corruptFrame seg.id se.diskPos.offset "unreadable frame")

/-- Every sealed segment from its footer, in sequence order; nothing when one of them
cannot be read that way. -/
def readSealedSidxEntriesParallel (segments sealed : List Segment) :
    Option (List ScannedIndexEntry) :=
  match sealed.mapM (scannedEntriesFromSidxFooter segments) with
  | .ok batches =>
      some (batches.flatten.insertionSort fun a b =>
        a.globalSequence.getD 0 ≤ b.globalSequence.getD 0)
  | .error _ => none

def sealedBelow (activeId : Option Nat) (segments : List Segment) : List Segment :=
  segments.filter fun seg => activeId.all fun active => seg.id < active

/-- The sealed part of a rebuild. -/
def scanSealed (activeId : Option Nat) (segments : List Segment) :
    Except StoreError (List ScannedIndexEntry) :=
  let sealed := sealedBelow activeId segments
  match readSealedSidxEntriesParallel segments sealed with
  | some entries => .ok entries
  | none =>
      (scanSegmentsFrom (fun policy seg => scanSegment policy activeId seg)
        (segments.getLast?.map (·.id)) sealed .initial).map Prod.snd

/-- The active segment of a running store, with a batch state of its own. -/
def scanActive (activeId : Option Nat) (segments : List Segment) :
    Except StoreError (List ScannedIndexEntry) :=
  (scan (scanSegment .recoverTornTail activeId)
    (segments.filter fun seg => activeId = some seg.id) .initial).map Prod.snd

/-- Everything a rebuild reads, in the order in which it is numbered. -/
def rebuildScan (activeId : Option Nat) (segments : List Segment) :
    Except StoreError (List ScannedIndexEntry) := do
  let sealed ← scanSealed activeId segments
  let active ← scanActive activeId segments
  return sealed ++ active

/-- The rebuilt entries in sequence order and where the allocator resumes. -/
def collectRebuildEntries (activeId : Option Nat) (segments : List Segment) :
    Except StoreError (List IndexEntry × Nat) := do
  let scanned ← rebuildScan activeId segments
  let (entries, tracker) := numberEntries .initial scanned
  return (sortBySequence entries, tracker.synthesizeNext)

/-! ### Snapshots -/

/-- What the mmap index or the checkpoint holds. -/
structure Snapshot where
  entries : List IndexEntry
  storedAllocator : Nat
  watermarkSegmentId : Nat
  watermarkOffset : Nat
  deriving Repr, Inhabited, DecidableEq

/-- Length of a segment file, footer included. -/
def Segment.fileLength (rt : Runtime) (seg : Segment) : Nat :=
  seg.framesEnd + (seg.footer.map fun rows => (rows.length + 1) * rt.footerRowLength).getD 0

/-- Snapshot of an index over the given files: every entry in sequence order, and the end
of the newest file. A zero causation id does not survive the encoding. -/
def Snapshot.take (rt : Runtime) (ix : StoreIndex) (segments : List Segment) : Snapshot where
  entries := (sortBySequence ix.allEntries).map fun e =>
    { e with causationId := e.causationId.filter (· ≠ 0) }
  storedAllocator := ix.globalSequence
  watermarkSegmentId := (segments.getLast?.map (·.id)).getD 0
  watermarkOffset := (segments.getLast?.map (Segment.fileLength rt)).getD 0

/-- `validate_watermark_segment`: the watermark must lie inside an existing file. -/
def Snapshot.valid (rt : Runtime) (segments : List Segment) (snap : Snapshot) : Bool :=
  match segments.find? fun seg => seg.id == snap.watermarkSegmentId with
  | some seg => snap.watermarkOffset ≤ seg.fileLength rt
  | none => false

/-- Everything after the watermark, scanned with one carried batch state. -/
def tailScan (snap : Snapshot) (segments : List Segment) :
    Except StoreError (List ScannedIndexEntry) :=
  (scanSegmentsFrom (fun policy seg st =>
      (scanSegment policy none seg st).map fun r =>
        (r.1, r.2.filter fun se =>
          !(seg.id = snap.watermarkSegmentId && se.diskPos.offset < snap.watermarkOffset)))
    (segments.getLast?.map (·.id))
    (segments.filter fun seg => snap.watermarkSegmentId ≤ seg.id) .initial).map Prod.snd

def collectTailEntries (snap : Snapshot) (segments : List Segment) :
    Except StoreError (List IndexEntry) := do
  let scanned ← tailScan snap segments
  return (numberEntries (.fromFloor snap.storedAllocator) scanned).1

/-- `build_snapshot_plan`. -/
def snapshotPlan (snap : Snapshot) (segments : List Segment) :
    Except StoreError (List IndexEntry × Nat) := do
  let tail ← collectTailEntries snap segments
  let entries := sortBySequence (snap.entries ++ tail)
  return (entries,
    max snap.storedAllocator ((entries.getLast?.map fun e => e.globalSequence + 1).getD 0))

/-- The fastest restore path that is available: a valid snapshot, else the rebuild. -/
def restorePlan (rt : Runtime) (snapshot : Option Snapshot) (segments : List Segment) :
    Except StoreError (List IndexEntry × Nat) :=
  match snapshot.filter (Snapshot.valid rt segments) with
  | some snap => snapshotPlan snap segments
  | none => collectRebuildEntries none segments

/-! ### The index -/

/-- `open_index`: entries, the durable idempotency map, the cancelled ranges. -/
def openIndex (rt : Runtime) (retention : IdempotencyRetention) (overflow : OverflowPolicy)
    (snapshot : Option Snapshot) (idempFile : Option (List IdempEntry))
    (ranges : Option CancelledVisibilityRanges) (segments : List Segment) :
    Except StoreError StoreIndex := do
  let (entries, hint) ← restorePlan rt snapshot segments
  let index := (StoreIndex.new retention overflow).restoreSortedEntries entries hint
  let index := match idempFile with
    | some stored => { index with idemp := index.idemp.restore stored }
    | none => index
  return match ranges with
    | some ranges => index.restoreCancelledVisibilityRanges ranges
    | none => index

end Batpak.Store
