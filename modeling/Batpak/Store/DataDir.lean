/-
Module: Batpak.Store.DataDir
Purpose: The segment files of the data directory with the traces of a compaction, the listing an
  open works from, and the compaction as a sequence of directory operations.
Trusted boundary: one directory operation takes effect or does not; the marker is written
  atomically
Main exports: PendingCompaction, DataDir
-/
import Batpak.Store.Recovery
import Batpak.Store.Writer
import Batpak.Util.Files

namespace Batpak.Store

open Batpak.Util

structure PendingCompaction where
  mergedId : Nat
  sourceSegmentIds : List Nat
  deriving Repr, Inhabited, DecidableEq

/-- `segments` are the `NNNNNN.fbat` files and `compactSources` the relocated
`NNNNNN.fbat.compact-src` files, both under their number. -/
structure DataDir where
  segments : Files Segment
  compactSources : Files Segment
  marker : Option PendingCompaction

namespace DataDir

def empty : DataDir :=
  ⟨.empty, .empty, none⟩

/-- The sources a marker names besides the one the merged file takes its number from. -/
def otherSources (marker : PendingCompaction) : List Nat :=
  marker.sourceSegmentIds.filter (· ≠ marker.mergedId)

/-- Whether a listing has a file of the given number. -/
def listed (entries : List (Nat × Segment)) (id : Nat) : Bool :=
  entries.any fun e => e.1 == id

/-- A relocated source is listed under a name that is no segment name: the full scan reads
it as segment number zero, and the index scan of an open skips it. -/
def relocatedSegment (seg : Segment) : Segment :=
  { seg with id := 0 }

/-- Which files a pending marker leaves in the listing. The merged file, once it exists,
supersedes the sources; until then the relocated source takes its place in id order and
every other source must still be there. -/
def reconcile (marker : PendingCompaction) (temp : Option Segment)
    (entries : List (Nat × Segment)) : Except StoreError (List (Nat × Segment)) :=
  let mergedPresent := listed entries marker.mergedId
  let staleFinalizedMarker :=
    mergedPresent && temp.isNone && (otherSources marker).all fun id => !listed entries id
  if staleFinalizedMarker then .ok entries
  else if mergedPresent then
    .ok (entries.filter fun e =>
      e.1 == marker.mergedId || !marker.sourceSegmentIds.contains e.1)
  else
    let reconciled :=
      match temp with
      | some source => Files.insertEntry marker.mergedId (relocatedSegment source)
          (entries.filter (·.1 != marker.mergedId))
      | none => entries
    if (otherSources marker).all (listed reconciled) then .ok reconciled
    else .error (.dataDirMalformed "compaction.pending.json")

/-- The segment files an open reads, in id order. -/
def segmentPaths (dir : DataDir) : Except StoreError (List (Nat × Segment)) :=
  match dir.marker with
  | none => .ok dir.segments.entries
  | some marker =>
      reconcile marker (dir.compactSources.find? marker.mergedId) dir.segments.entries

/-- `find_latest_segment_id`: relocated sources do not count. -/
def findLatestSegmentId (dir : DataDir) : Option Nat :=
  dir.segments.newest?

/-- Every open starts a new segment past all existing ones. -/
def spawnSegment (headerBytes : Nat) (dir : DataDir) : DataDir :=
  let id := dir.findLatestSegmentId.getD 0 + 1
  { dir with segments := dir.segments.put id (.create id headerBytes) }

/-- Apply a change to the active segment, which is the newest file. -/
def updateActive (g : Segment → Segment) (dir : DataDir) : DataDir :=
  match dir.findLatestSegmentId with
  | some id => { dir with segments := dir.segments.modify id g }
  | none => dir

end DataDir

/-! ### What a compaction copies -/

inductive CompactionStrategy where
  | merge
  | retention (predicate : Frame → Bool)
  | tombstone (predicate : Frame → Bool)

namespace CompactionStrategy

/-- Whether an event survives; a tombstoned event does, under another kind. -/
def retains : CompactionStrategy → Frame → Bool
  | .merge, _ => true
  | .retention predicate, f => predicate f
  | .tombstone _, _ => true

/-- What is written for an event that survives. -/
def rewrite : CompactionStrategy → Frame → Frame
  | .merge, f => f
  | .retention _, f => f
  | .tombstone predicate, f => if predicate f then f else { f with kind := .tombstone }

end CompactionStrategy

/-- `scan_segment`: every event frame of a sealed file, batch markers skipped and without
any batch state. The file has to be whole. The payload is taken for readable: what a retention or
a tombstone has written holds the decoded payload in place of its bytes, and in the code a second
one refuses it. -/
def fullScanChunks (toEof : Bool) (segmentId : Nat) :
    Nat → List Chunk → Except StoreError (List Frame)
  | _, [] => .ok []
  | offset, .torn length :: rest =>
      if length = 0 then fullScanChunks toEof segmentId offset rest
      else if rest.isEmpty ∧ length < frameHeaderBytes ∧ toEof = true then .ok []
      else .error (.corruptSegment segmentId "frame payload extends past the frame region")
  | offset, .frame f length :: rest =>
      if maxFramePayload < length - frameHeaderBytes then
        .error (.corruptSegment segmentId
          s!"frame payload length {length - frameHeaderBytes} exceeds MAX_FRAME_PAYLOAD")
      else
        (fullScanChunks toEof segmentId (offset + length) rest).map fun frames =>
          if f.kind.isBatchMarker then frames else f :: frames

def fullScanSegment (seg : Segment) : Except StoreError (List Frame) :=
  fullScanChunks seg.footer.isNone seg.id seg.headerBytes seg.chunks

def scanSealedEntries : List Segment → Except StoreError (List Frame)
  | [] => .ok []
  | seg :: rest => do
      let frames ← fullScanSegment seg
      let later ← scanSealedEntries rest
      return frames ++ later

/-- Re-encode scanned entries for the merged file. -/
def encodeScanned (rt : Runtime) : List Frame → Except StoreError (List Chunk)
  | [] => .ok []
  | f :: rest => do
      let length ← frameEncode rt false f
      let later ← encodeScanned rt rest
      return .frame f length :: later

/-- The chunks the merged file receives: the raw bytes of every source when merging, the
re-encoded surviving events otherwise. -/
def copiedChunks (rt : Runtime) (strategy : CompactionStrategy) (sources : List Segment) :
    Except StoreError (List Chunk) :=
  match strategy with
  | .merge => .ok (sources.flatMap (·.chunks))
  | _ => do
      let frames ← scanSealedEntries sources
      encodeScanned rt ((frames.filter strategy.retains).map strategy.rewrite)

/-! ### Compaction as directory operations -/

inductive DirOp where
  | writeMarker (marker : PendingCompaction)
  | removeCompactSource (id : Nat)
  | relocate (id : Nat)
  | removeSegment (id : Nat)
  | createSegment (id headerBytes : Nat)
  | appendChunk (id : Nat) (chunk : Chunk)
  | syncSegment (id : Nat)
  | readSources
  | rebuildIndex
  | restoreSource (id : Nat)
  | clearMarker
  deriving Repr, Inhabited, DecidableEq

def Segment.appendChunk (chunk : Chunk) (seg : Segment) : Segment :=
  { seg with
    chunks := seg.chunks ++ [chunk]
    writtenBytes := seg.writtenBytes + chunk.length }

def DirOp.apply (op : DirOp) (dir : DataDir) : DataDir :=
  match op with
  | .writeMarker marker => { dir with marker := some marker }
  | .removeCompactSource id => { dir with compactSources := dir.compactSources.remove id }
  | .relocate id =>
      match dir.segments.find? id with
      | some seg =>
          { dir with
            segments := dir.segments.remove id
            compactSources := dir.compactSources.put id seg }
      | none => dir
  | .removeSegment id => { dir with segments := dir.segments.remove id }
  | .createSegment id headerBytes =>
      { dir with segments := dir.segments.put id (.create id headerBytes) }
  | .appendChunk id chunk =>
      { dir with segments := dir.segments.modify id (Segment.appendChunk chunk) }
  | .syncSegment id => { dir with segments := dir.segments.modify id Segment.sync }
  | .readSources => dir
  | .rebuildIndex => dir
  | .restoreSource id =>
      match dir.compactSources.find? id with
      | some seg =>
          { dir with
            segments := dir.segments.put id seg
            compactSources := dir.compactSources.remove id }
      | none => dir
  | .clearMarker => { dir with marker := none }

namespace DataDir

/-- The files `compact` takes for sealed: everything below the newest number. The marker
and the relocated sources are not consulted. -/
def sealedSegments (dir : DataDir) : List (Nat × Segment) :=
  dir.segments.entries.filter fun e => e.1 < dir.findLatestSegmentId.getD 0

end DataDir

/-- Everything up to the copy: marker, relocation of the first source, empty merged file,
and the reading of the sources. -/
def prepareOps (headerBytes mergedId : Nat) (sourceIds : List Nat) : List DirOp :=
  [.writeMarker ⟨mergedId, sourceIds⟩, .removeCompactSource mergedId, .relocate mergedId,
    .removeSegment mergedId, .createSegment mergedId headerBytes, .readSources]

/-- The copy, its sync, and the rebuild of the index from the new listing. -/
def copyOps (mergedId : Nat) (chunks : List Chunk) : List DirOp :=
  chunks.map (.appendChunk mergedId) ++ [.syncSegment mergedId, .rebuildIndex]

/-- After the swap: the sources go in order, the first one from where it was relocated to. -/
def finishOps (mergedId : Nat) (others : List Nat) : List DirOp :=
  .removeCompactSource mergedId :: others.map .removeSegment ++
    [.removeCompactSource mergedId, .clearMarker]

/-- `rollback_compaction_disk_state`. The first source is put back only when the failing
compaction had relocated it. -/
def rollbackOps (mergedId : Nat) (relocated : Bool) : List DirOp :=
  .removeSegment mergedId :: (if relocated then [.restoreSource mergedId] else []) ++
    [.clearMarker]

/-- The operations before the swap: a failure among them is rolled back. -/
def preSwapOps (headerBytes mergedId : Nat) (sourceIds : List Nat)
    (copied : Except StoreError (List Chunk)) : List DirOp :=
  prepareOps headerBytes mergedId sourceIds ++
    copyOps mergedId (match copied with
      | .ok chunks => chunks
      | .error _ => [])

/-- The first operation that reports an error: the given one, or the reading of sources
that cannot be read. -/
def failingOp (copied : Except StoreError (List Chunk)) (fails : Option Nat) : Option Nat :=
  match copied with
  | .ok _ => fails
  | .error _ => some (min (fails.getD 5) 5)

/-- The operations one call of `compact` performs, rollback included. A marker that cannot
be written and an error after the swap end the call without one. -/
def compactOps (headerBytes mergedId : Nat) (sourceIds : List Nat)
    (copied : Except StoreError (List Chunk)) (fails : Option Nat) : List DirOp :=
  let preSwap := preSwapOps headerBytes mergedId sourceIds copied
  let finish := finishOps mergedId sourceIds.tail
  match failingOp copied fails with
  | none => preSwap ++ finish
  | some k =>
      if k = 0 then []
      else if k < preSwap.length then preSwap.take k ++ rollbackOps mergedId (2 < k)
      else preSwap ++ finish.take (k - preSwap.length)

/-- How far a call gets: the operation that reports an error, if any, and after how many
operations the process stops, if it does. The copy goes frame by frame; the bytes of a
frame it stops in hold no event. -/
structure Interruption where
  fails : Option Nat
  stops : Option Nat
  deriving Repr, Inhabited, DecidableEq

def Interruption.never : Interruption :=
  ⟨none, none⟩

def runOps (ops : List DirOp) (dir : DataDir) : DataDir :=
  ops.foldl (fun dir op => op.apply dir) dir

/-- Perform operations until the process stops. -/
def runInterrupted (ops : List DirOp) (stops : Option Nat) (dir : DataDir) : DataDir :=
  match stops with
  | none => runOps ops dir
  | some n => runOps (ops.take n) dir

/-- One call of `compact`, as far as it gets. With no sealed segment there is nothing to
take a number from, and below the threshold the call is skipped. -/
def compactDir (rt : Runtime) (headerBytes minSegments : Nat) (strategy : CompactionStrategy)
    (stop : Interruption) (dir : DataDir) : DataDir :=
  match dir.sealedSegments with
  | [] => dir
  | source :: others =>
      if (source :: others).length < minSegments then dir
      else
        let copied := copiedChunks rt strategy ((source :: others).map Prod.snd)
        let ids := (source :: others).map Prod.fst
        runInterrupted (compactOps headerBytes source.1 ids copied stop.fails) stop.stops dir

end Batpak.Store
