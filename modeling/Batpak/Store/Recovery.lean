/-
Module: Batpak.Store.Recovery
Purpose: The scan that rebuilds index entries from a segment file, frame by frame or from its SIDX
  footer.
Trusted boundary: a complete frame decodes to what was encoded; bytes that follow a torn
  write fail their checksum
Main exports: ScannedIndexEntry, BatchRecoveryState
-/
import Batpak.Store.Segment
import Batpak.Util.Scan

namespace Batpak.Store

open Batpak.Util

/-- What a scan recovers about one event. A sequence is known only when it came from a
footer row. -/
structure ScannedIndexEntry where
  eventId : Nat
  correlationId : Nat
  causationId : Option Nat
  coord : Coordinate
  kind : EventKind
  wallMs : Nat
  clock : Nat
  dagLane : Nat
  dagDepth : Nat
  hashChain : HashChain
  diskPos : DiskPos
  receiptExtensions : Extensions
  globalSequence : Option Nat
  provenance : Option Provenance
  deriving Repr, Inhabited, DecidableEq

namespace ScannedIndexEntry

def ofFrame (f : Frame) (pos : DiskPos) : ScannedIndexEntry where
  eventId := f.eventId
  correlationId := f.correlationId
  causationId := f.causationId
  coord := f.coord
  kind := f.kind
  wallMs := f.wallMs
  clock := f.clock
  dagLane := f.dagLane
  dagDepth := f.dagDepth
  hashChain := f.hashChain
  diskPos := pos
  receiptExtensions := f.receiptExtensions
  globalSequence := none
  provenance := f.provenance

/-- A footer row knows its sequence but not the receipt extensions. -/
def fromColdStartRow (segmentId : Nat) (row : SidxEntry) : ScannedIndexEntry where
  eventId := row.eventId
  correlationId := row.correlationId
  causationId := row.causationId
  coord := row.coord
  kind := row.kind
  wallMs := row.wallMs
  clock := row.clock
  dagLane := row.dagLane
  dagDepth := row.dagDepth
  hashChain := row.hashChain
  diskPos := ⟨segmentId, row.frameOffset, row.frameLength⟩
  receiptExtensions := []
  globalSequence := some row.globalSequence
  provenance := row.provenance

end ScannedIndexEntry

/-! ### The batch state -/

structure BatchRecoveryState where
  staged : List ScannedIndexEntry
  remaining : Nat
  startedCount : Nat
  inBatch : Bool
  deriving Repr, Inhabited, DecidableEq

namespace BatchRecoveryState

def initial : BatchRecoveryState :=
  ⟨[], 0, 0, false⟩

/-- Stage an entry of the open batch; refused when the declared count is used up. -/
def stageEntry (st : BatchRecoveryState) (entry : ScannedIndexEntry) :
    Option BatchRecoveryState :=
  if st.remaining = 0 then none
  else some { st with staged := st.staged ++ [entry], remaining := st.remaining - 1 }

def discardIncomplete (_ : BatchRecoveryState) : BatchRecoveryState :=
  ⟨[], 0, 0, false⟩

end BatchRecoveryState

def maxBatchRecoveryItems : Nat := 1000000

def checkedBatchCount (segmentId offset count : Nat) : Except StoreError Nat :=
  if count = 0 ∨ maxBatchRecoveryItems < count then
    .error (.corruptSegment segmentId
      s!"invalid batch marker count {count} at offset {offset}; expected 1..={maxBatchRecoveryItems}")
  else .ok count

/-- One decoded frame: the new batch state and the entries handed to the sink. -/
def scanFrame (f : Frame) (pos : DiskPos) (st : BatchRecoveryState) :
    Except StoreError (BatchRecoveryState × List ScannedIndexEntry) :=
  if f.kind = .systemBatchBegin then
    match checkedBatchCount pos.segmentId pos.offset f.payloadSize with
    | .error e => .error e
    | .ok count =>
        -- a BEGIN inside a batch drops what the open batch had staged
        let staged := if st.inBatch then [] else st.staged
        .ok (⟨staged, count, count, true⟩, [])
  else if f.kind = .systemBatchCommit then
    if st.inBatch then
      .ok ({ st with staged := [], inBatch := false },
        if st.remaining = 0 then st.staged else [])
    else .ok (st, [])
  else if st.inBatch then
    match st.stageEntry (.ofFrame f pos) with
    | some st' => .ok (st', [])
    | none => .ok (st.discardIncomplete, [])
  else .ok (st, [.ofFrame f pos])

/-! ### One segment, frame by frame -/

inductive FrameScanTailPolicy where
  | failClosed
  | recoverTornTail
  deriving Repr, Inhabited, DecidableEq

def maxFramePayload : Nat := 268435456

def frameHeaderBytes : Nat := 8

/-- Scan the chunks from a file offset on. `toEof` says that the frame region runs to the
end of the file, which it does not when a footer follows. -/
def scanChunks (policy : FrameScanTailPolicy) (toEof : Bool) (segmentId : Nat) :
    Nat → List Chunk → BatchRecoveryState →
      Except StoreError (BatchRecoveryState × List ScannedIndexEntry)
  | _, [], st => .ok (st, [])
  | offset, .torn length :: rest, st =>
      if length = 0 then scanChunks policy toEof segmentId offset rest st
      else if !rest.isEmpty then
        .error (.corruptFrame segmentId offset "crc mismatch after a torn write")
      else if length < frameHeaderBytes ∧ toEof = true then .ok (st, [])
      else if policy = .recoverTornTail ∧ toEof = true then .ok (st, [])
      else .error (.corruptFrame segmentId offset "frame payload extends past the frame region")
  | offset, .frame f length :: rest, st =>
      if maxFramePayload < length - frameHeaderBytes then
        if policy = .recoverTornTail then .ok (st, [])
        else .error (.corruptFrame segmentId offset
          s!"frame payload length {length - frameHeaderBytes} exceeds MAX_FRAME_PAYLOAD")
      else
        match scanFrame f ⟨segmentId, offset, length⟩ st with
        | .error e => .error e
        | .ok (st', found) =>
            yieldFirst found (scanChunks policy toEof segmentId (offset + length) rest st')

/-- The slow path: every frame of the file is read. -/
def frameScanSegment (policy : FrameScanTailPolicy) (seg : Segment) (st : BatchRecoveryState) :
    Except StoreError (BatchRecoveryState × List ScannedIndexEntry) :=
  scanChunks policy seg.footer.isNone seg.id seg.headerBytes seg.chunks st

/-! ### The footer -/

namespace Segment

/-- File offset right after the last chunk: where a footer starts. -/
def framesEnd (seg : Segment) : Nat :=
  seg.headerBytes + (seg.chunks.map Chunk.length).sum

/-- The frames with their places in the file. -/
def locate (segmentId : Nat) : Nat → List Chunk → List (Frame × DiskPos)
  | _, [] => []
  | offset, .torn length :: rest => locate segmentId (offset + length) rest
  | offset, .frame f length :: rest =>
      (f, ⟨segmentId, offset, length⟩) :: locate segmentId (offset + length) rest

def located (seg : Segment) : List (Frame × DiskPos) :=
  locate seg.id seg.headerBytes seg.chunks

end Segment

/-- The footer covers the segment when its rows reach exactly to the footer start. -/
def sidxCoversSegmentTail (seg : Segment) (rows : List SidxEntry) : Bool :=
  (rows.map fun r => r.frameOffset + r.frameLength).foldl max 0 = seg.framesEnd

/-- Footer rows as scanned entries, markers left out. -/
def footerEntries (segmentId : Nat) (rows : List SidxEntry) : List ScannedIndexEntry :=
  (rows.filter fun r => !r.kind.isBatchMarker).map (.fromColdStartRow segmentId)

/-- One segment: from the footer when it covers the file, the segment is not the active
one and no batch is open; frame by frame otherwise. -/
def scanSegment (policy : FrameScanTailPolicy) (activeId : Option Nat) (seg : Segment)
    (st : BatchRecoveryState) :
    Except StoreError (BatchRecoveryState × List ScannedIndexEntry) :=
  match seg.footer with
  | some rows =>
      if activeId ≠ some seg.id ∧ st.inBatch = false ∧ sidxCoversSegmentTail seg rows = true then
        .ok (st, footerEntries seg.id rows)
      else frameScanSegment policy seg st
  | none => frameScanSegment policy seg st

/-- Scan segments one after another with one carried batch state. Only the newest one may
end in a torn tail. -/
def scanSegmentsFrom
    (scanOne : FrameScanTailPolicy → Segment → BatchRecoveryState →
      Except StoreError (BatchRecoveryState × List ScannedIndexEntry))
    (newest : Option Nat) (segments : List Segment) (st : BatchRecoveryState) :
    Except StoreError (BatchRecoveryState × List ScannedIndexEntry) :=
  scan (fun seg => scanOne (if newest = some seg.id then .recoverTornTail else .failClosed) seg)
    segments st

/-- Frame-scan every segment in order. -/
def frameScanSegments (segments : List Segment) :
    Except StoreError (BatchRecoveryState × List ScannedIndexEntry) :=
  scanSegmentsFrom frameScanSegment (segments.getLast?.map (·.id)) segments .initial

end Batpak.Store
