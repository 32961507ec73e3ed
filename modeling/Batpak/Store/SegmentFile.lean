/-
Module: Batpak.Store.SegmentFile
Purpose: Segment files byte by byte: the footer boundary, the recovery of the frame region behind
  an untrusted footer, and the three readers that ask for it.
Trusted boundary: the checksum and the MessagePack codec are parameters
Main exports: SegmentReader, tryDecodeFrameAt
-/
import Batpak.Store.ColdStartRow
import Batpak.Store.FrameFile
import Batpak.Store.FrameSerde

namespace Batpak.Store

open Batpak.Util

/-- The third-party parts a reader of segment files calls. -/
structure SegmentReader where
  crc : Crc32
  codec : MsgpackCodec

/-- A frame whose own checksum passed: its length and the content hash it carries. -/
structure RecoveredFrame where
  frameLength : Nat
  eventHash : Option Bytes
  deriving Repr, DecidableEq

/-- Where a footer says that the frames end, and whether it authenticates. -/
structure SidxBoundary where
  framesEnd : Nat
  trusted : Bool
  deriving Repr, DecidableEq

namespace SegmentReader

/-- `encoding::from_bytes` of a type. -/
def fromBytes {α : Type} (r : SegmentReader) (s : Serde α) (bytes : Bytes) : Except String α :=
  match r.codec.read bytes with
  | .error e => .error e
  | .ok m =>
      match s.de m with
      | none => .error "invalid type"
      | some a => .ok a

def frameCodec (r : SegmentReader) : FrameCodec where
  crc := r.crc.hash
  readable bytes := (r.fromBytes frameSerde bytes).isOk

/-! ### One frame -/

/-- The size of the frame that begins at this byte, if one does: a payload that is not empty
and not oversized, whole, and with its checksum right. -/
def tryDecodeFrameAt (r : SegmentReader) (file : Bytes) (pos : Nat) : Option Nat :=
  if file.length - pos < 8 then none
  else
    let claimedLen := ofBeBytes ((file.drop pos).take 4)
    if claimedLen = 0 ∨ maxFramePayload < claimedLen then none
    else if file.length < pos + 8 + claimedLen then none
    else
      match r.frameCodec.frameDecode ((file.drop pos).take (8 + claimedLen)) with
      | .ok (_, frameSize) => some frameSize
      | .error _ => none

/-- Probe every byte from `probe` on; a round probes one. -/
def probeRounds (r : SegmentReader) (file : Bytes) : Nat → Nat → Bool
  | 0, _ => false
  | rounds + 1, probe =>
      if file.length - probe < 8 then false
      else if (r.tryDecodeFrameAt file probe).isSome then true
      else probeRounds r file rounds (probe + 1)

def crcValidFrameExistsAfter (r : SegmentReader) (file : Bytes) (start : Nat) : Bool :=
  r.probeRounds file file.length start

/-! ### The untrusted frame region -/

/-- `None` when the frame has no usable hash. -/
def readFrameEventHash (r : SegmentReader) (file : Bytes) (pos frameSize : Nat) : Option Bytes :=
  if frameSize < 8 then none
  else
    match readExactAt file pos frameSize with
    | .error _ => none
    | .ok frame =>
        match r.frameCodec.frameDecode frame with
        | .error _ => none
        | .ok (msgpack, _) =>
            match r.codec.read msgpack with
            | .error _ => none
            | .ok m => frameEventHash m

/-- Walk the frames from `cursor`, collecting them by offset. The walk refuses to stop in front
of a frame that still decodes. -/
def framesEndRounds (r : SegmentReader) (segmentId : Nat) (file : Bytes) :
    Nat → Nat → List (Nat × RecoveredFrame) → Except StoreError (Nat × List (Nat × RecoveredFrame))
  | 0, cursor, recovered => .ok (cursor, recovered)
  | rounds + 1, cursor, recovered =>
      if file.length ≤ cursor then .ok (file.length, recovered)
      else
        match r.tryDecodeFrameAt file cursor with
        | some frameSize =>
            let frame := ⟨frameSize, r.readFrameEventHash file cursor frameSize⟩
            framesEndRounds r segmentId file rounds (cursor + frameSize)
              (recovered ++ [(cursor, frame)])
        | none =>
            if r.crcValidFrameExistsAfter file (cursor + 1) then
              .error (.corruptSegment segmentId ("mid-stream corruption: frame at offset "
                ++ toString cursor ++ " is non-decodable but a CRC-valid frame follows before EOF "
                ++ "(file_len " ++ toString file.length ++ "); refusing to silently truncate to "
                ++ "the prefix during untrusted-footer recovery"))
            else .ok (cursor, recovered)

def crcValidFramesEndWithMap (r : SegmentReader) (file : Bytes) (framesStart segmentId : Nat) :
    Except StoreError (Nat × List (Nat × RecoveredFrame)) :=
  r.framesEndRounds segmentId file (file.length + 1) framesStart []

end SegmentReader

namespace Sidx

/-- The row table of a footer without its checksum: every row is a hypothesis. Any trouble with
its geometry gives no rows. -/
def readEntriesUnauthenticated (segmentId : Nat) (file : Bytes) : List SidxEntry :=
  if file.length < trailerSize then []
  else
    let trailer := (file.drop (file.length - trailerSize)).take trailerSize
    if trailer.drop 12 ≠ sidxMagic ∧ trailer.drop 12 ≠ sidxMagicLegacy then []
    else
      let stringTableOffset := (getLe UInt64 trailer).1.toNat
      let entryCount := (getLe UInt32 (trailer.drop 8)).1.toNat
      let entriesBlockLen := entryCount * entrySize
      if 2 ^ 64 ≤ entriesBlockLen then []
      else if file.length < trailerSize + sidxCrcLen + entriesBlockLen then []
      else
        let entriesStart := file.length - trailerSize - sidxCrcLen - entriesBlockLen
        if entriesStart < stringTableOffset then []
        else
          match (List.range entryCount).mapM fun i => do
            let buf ← readExactAt file (entriesStart + i * entrySize) entrySize
            SidxEntry.decodeFrom segmentId buf with
          | .error _ => []
          | .ok entries => entries

end Sidx

inductive UntrustedRecovery where
  | recoverPrefix (stop : Nat)
  | failClosed
  deriving Repr, DecidableEq

/-- A recovered frame at the row's offset has its length and its content hash. -/
def corroborated (recovered : List (Nat × RecoveredFrame)) (entry : Sidx.SidxEntry) : Bool :=
  match recovered.lookup entry.frameOffset.toNat with
  | some frame =>
      frame.frameLength = entry.frameLength.toNat && frame.eventHash = some entry.eventHash.toList
  | none => false

/-- Rows count as evidence once one of them is corroborated; then a row at or behind the stop
without its frame proves that a committed frame is missing. -/
def corroborateUntrustedEntries (entries : List Sidx.SidxEntry)
    (recovered : List (Nat × RecoveredFrame)) (recoveryStop : Nat) (_fallbackFailClosed : Bool) :
    UntrustedRecovery :=
  if !entries.any (corroborated recovered) then .recoverPrefix recoveryStop
  else if entries.any fun e => recoveryStop ≤ e.frameOffset.toNat && !corroborated recovered e then
    .failClosed
  else .recoverPrefix recoveryStop

namespace SegmentReader

def resolveUntrustedFramesEnd (r : SegmentReader) (file : Bytes) (framesStart segmentId : Nat)
    (fallbackFailClosed : Bool) : Except StoreError Nat :=
  let entries := Sidx.readEntriesUnauthenticated segmentId file
  match r.crcValidFramesEndWithMap file framesStart segmentId with
  | .error e => .error e
  | .ok (recoveryStop, recovered) =>
      match corroborateUntrustedEntries entries recovered recoveryStop fallbackFailClosed with
      | .recoverPrefix stop => .ok stop
      | .failClosed =>
          .error (.corruptSegment segmentId ("untrusted-footer recovery: a corroborated SIDX "
            ++ "manifest entry attests to a committed frame at/after the recovered prefix end "
            ++ toString recoveryStop ++ " that is missing from the CRC-valid frame stream "
            ++ "(file_len " ++ toString file.length ++ "); a torn/corrupt last committed frame "
            ++ "under a corrupt footer would silently drop a committed event — refusing to recover"))

/-! ### The boundary -/

/-- A trailer of either magic is a boundary; only a footer that authenticates is trusted, and
only its offset is checked. -/
def detectSidxBoundary (r : SegmentReader) (file : Bytes) (segmentId : Nat) :
    Except StoreError (Option SidxBoundary) :=
  if file.length < Sidx.trailerSize then .ok none
  else
    let trailer := (file.drop (file.length - Sidx.trailerSize)).take Sidx.trailerSize
    if trailer.drop 12 ≠ Sidx.sidxMagic ∧ trailer.drop 12 ≠ Sidx.sidxMagicLegacy then .ok none
    else
      let stringTableOffset := (getLe UInt64 trailer).1.toNat
      match Sidx.authenticatedStringTableOffset r.crc segmentId file with
      | .error e => .error e
      | .ok found =>
          if found = some stringTableOffset ∧ file.length - 16 < stringTableOffset then
            .error (.corruptSegment segmentId ("SIDX string_table_offset "
              ++ toString stringTableOffset ++ " is past the frame region (max "
              ++ toString (file.length - 16) ++ " = file_len " ++ toString file.length
              ++ " - 16-byte trailer)"))
          else .ok (some ⟨stringTableOffset, found = some stringTableOffset⟩)

/-! ### The segment header -/

/-- `FBAT` -/
def segmentMagic : Bytes := [0x46, 0x42, 0x41, 0x54]

def maxSegmentHeader : Nat := 65536

/-- Magic, length and header; the frames start behind them. -/
def readSegmentHeader (r : SegmentReader) (segmentId : Nat) (file : Bytes) :
    Except StoreError Nat := do
  let magic ← readExactAt file 0 4
  if magic ≠ segmentMagic then .error (.corruptSegment segmentId "bad magic")
  else do
    let headerLenBuf ← readExactAt file 4 4
    let headerLen := ofBeBytes headerLenBuf
    if maxSegmentHeader < headerLen then
      .error (.corruptSegment segmentId ("segment header length " ++ toString headerLen
        ++ " exceeds MAX_SEGMENT_HEADER " ++ toString maxSegmentHeader))
    else do
      let headerBuf ← readExactAt file 8 headerLen
      match r.fromBytes segmentHeaderSerde headerBuf with
      | .error e => .error (.serialization e)
      | .ok header =>
          if header.version ≠ 1 then
            .error (.corruptSegment segmentId
              ("unsupported segment version: " ++ toString header.version))
          else .ok (8 + headerLen)

/-- Where the frame region ends, given where it starts: a trusted offset as it is, an
untrusted one not at all. -/
def framesEnd (r : SegmentReader) (file : Bytes) (framesStart segmentId : Nat)
    (boundary : Option SidxBoundary) (fallbackFailClosed : Bool) (context : String) :
    Except StoreError Nat :=
  match boundary with
  | some ⟨_, false⟩ => r.resolveUntrustedFramesEnd file framesStart segmentId fallbackFailClosed
  | some ⟨stop, true⟩ =>
      if stop < framesStart then
        .error (.corruptSegment segmentId ("SIDX string_table_offset " ++ toString stop
          ++ " is below the frame region start " ++ toString framesStart ++ " (8 + header_len "
          ++ toString (framesStart - 8) ++ ")" ++ context))
      else .ok stop
  | none =>
      if file.length < framesStart then
        .error (.corruptSegment segmentId ("SIDX string_table_offset " ++ toString file.length
          ++ " is below the frame region start " ++ toString framesStart ++ " (8 + header_len "
          ++ toString (framesStart - 8) ++ ")" ++ context))
      else .ok file.length

/-! ### The frame loops -/

inductive NextFrame where
  | stop
  | frame (msgpack : Bytes) (size : Nat)
  deriving Repr, DecidableEq

/-- One round of a frame loop up to its payload. The index scan may take a frame that does not
fit for a torn tail; `refuse` is the error of the loop for such a frame. -/
def nextFrame (r : SegmentReader) (recoverTornTail : Bool) (refuse : Nat → String → StoreError)
    (segmentId framesEnd : Nat) (file : Bytes) (cursor : Nat) : Except StoreError NextFrame :=
  if framesEnd ≤ cursor then .ok .stop
  -- an incomplete frame header reads as a clean end of file
  else if file.length < cursor + 8 then .ok .stop
  else
    let payloadLen := ofBeBytes ((file.drop cursor).take 4)
    if maxFramePayload < payloadLen then
      if recoverTornTail then .ok .stop
      else .error (refuse cursor
        ("frame payload length " ++ toString payloadLen ++ " exceeds MAX_FRAME_PAYLOAD"))
    else if framesEnd < cursor + 8 + payloadLen then
      if recoverTornTail ∧ framesEnd = file.length then .ok .stop
      else .error (refuse cursor "frame payload extends past the frame region")
    else if file.length < cursor + 8 + payloadLen then
      if recoverTornTail then .ok .stop
      else .error (.corruptSegment segmentId "frame payload ended before requested length")
    else
      match r.frameCodec.frameDecode ((file.drop cursor).take (8 + payloadLen)) with
      | .ok (msgpack, size) => .ok (.frame msgpack size)
      | .error (.crcMismatch _ _) => .error (.corruptFrame segmentId cursor "crc mismatch")
      | .error _ => .error (.corruptSegment segmentId
          ("frame at offset " ++ toString cursor ++ " is corrupt after full payload read"))

/-- The rounds of a frame loop: where it stops, the state it carries, and what the frames
yield. -/
def frameRounds {σ β : Type} (next : Nat → Except StoreError NextFrame)
    (handle : Nat → Nat → Bytes → σ → Except StoreError (σ × List β)) :
    Nat → Nat → σ → Except StoreError (Nat × σ × List β)
  | 0, cursor, s => .ok (cursor, s, [])
  | rounds + 1, cursor, s => do
      match ← next cursor with
      | .stop => return (cursor, s, [])
      | .frame msgpack size => do
          let (s, found) ← handle cursor size msgpack s
          let (stop, s, more) ← frameRounds next handle rounds (cursor + size) s
          return (stop, s, found ++ more)

/-! ### The index scan -/

/-- The frame the index scan works on: its payload is not read. -/
def indexFrame (f : StoredFrame) (chain : HashChain) : Frame where
  eventId := f.event.header.eventId
  correlationId := f.event.header.correlationId
  causationId := f.event.header.causationId
  timestampUs := f.event.header.timestampUs
  wallMs := f.event.header.wallMs
  clock := f.event.header.clock
  dagLane := f.event.header.dagLane
  dagDepth := f.event.header.dagDepth
  payloadSize := f.event.header.payloadSize
  kind := f.event.header.kind
  flags := f.event.header.flags
  payloadVersion := f.event.header.payloadVersion
  payload := []
  hashChain := chain
  coord := f.coord
  receiptExtensions := f.receiptExtensions
  provenance := none

/-- Only events need a hash chain. -/
def indexHandle (r : SegmentReader) (segmentId offset size : Nat) (msgpack : Bytes)
    (st : BatchRecoveryState) : Except StoreError (BatchRecoveryState × List ScannedIndexEntry) :=
  match r.fromBytes frameSerde msgpack with
  | .error e => .error (.corruptSegment segmentId
      ("frame at offset " ++ toString offset ++ " has unreadable index metadata: " ++ e))
  | .ok f =>
      if f.event.header.kind.isBatchMarker then
        scanFrame (indexFrame f ⟨0, 0⟩) ⟨segmentId, offset, size⟩ st
      else
        match f.event.hashChain with
        | some chain => scanFrame (indexFrame f chain) ⟨segmentId, offset, size⟩ st
        | none => .error (.corruptSegment segmentId ("event at offset " ++ toString offset
            ++ " is missing hash_chain; recovery no longer defaults missing hashes"))

end SegmentReader

def FrameScanTailPolicy.canRecoverTornTail : FrameScanTailPolicy → Bool
  | .recoverTornTail => true
  | .failClosed => false

namespace Sidx

/-- The rows reach exactly to the offset in the trailer; a tail that overflows does not. -/
def sidxCoversSegmentTail (file : Bytes) (entries : List SidxEntry) : Bool :=
  let trailer := (file.drop (file.length - trailerSize)).take trailerSize
  let tails := entries.map fun e => e.frameOffset.toNat + e.frameLength.toNat
  trailerSize ≤ file.length && trailer.drop 12 = sidxMagic && tails.all (· < 2 ^ 64) &&
    tails.foldl max 0 = (getLe UInt64 trailer).1.toNat

end Sidx

/-- A row as a scanned event: the sequence is known, the receipt extensions are not. -/
def ScannedIndexEntry.fromRow (row : ColdStartIndexRow) (internerStrings : List String) :
    Except StoreError ScannedIndexEntry := do
  let coord ← row.resolveStrings internerStrings
  return {
    eventId := row.eventId
    correlationId := row.correlationId
    causationId := row.causationId
    coord
    kind := row.kind
    wallMs := row.wallMs
    clock := row.clock
    dagLane := row.dagLane
    dagDepth := row.dagDepth
    hashChain := row.hashChain
    diskPos := row.diskPos
    receiptExtensions := []
    globalSequence := some row.globalSequence
    provenance := none }

namespace SegmentReader

/-- The rows of a footer that authenticates and covers the file, if there is one. The active
segment and an open batch always take the frame loop. -/
def sidxFastPath (r : SegmentReader) (activeId segmentId : Nat) (batchInProgress : Bool)
    (file : Bytes) : Except StoreError (Option (List ScannedIndexEntry)) :=
  if activeId = segmentId ∨ batchInProgress then .ok none
  else
    match Sidx.readFooter r.codec r.crc segmentId file with
    | .ok (some (entries, strings)) =>
        if Sidx.sidxCoversSegmentTail file entries then
          (((entries.map fun e => e.toColdStartRow segmentId).filter fun row =>
            !row.kind.isBatchMarker).mapM fun row => ScannedIndexEntry.fromRow row strings).map some
        else .ok none
    | _ => .ok none

/-- The frame loop of the index scan: where it stops, the batch state and the entries. -/
def frameScan (r : SegmentReader) (policy : FrameScanTailPolicy) (segmentId : Nat)
    (st : BatchRecoveryState) (file : Bytes) :
    Except StoreError (Nat × BatchRecoveryState × List ScannedIndexEntry) := do
  let boundary ← r.detectSidxBoundary file segmentId
  let framesStart ← r.readSegmentHeader segmentId file
  let stop ← r.framesEnd file framesStart segmentId boundary (!policy.canRecoverTornTail) ""
  frameRounds
    (r.nextFrame policy.canRecoverTornTail (.corruptFrame segmentId) segmentId stop file)
    (r.indexHandle segmentId) file.length framesStart st

def scanSegmentIndex (r : SegmentReader) (policy : FrameScanTailPolicy) (activeId segmentId : Nat)
    (st : BatchRecoveryState) (file : Bytes) :
    Except StoreError (BatchRecoveryState × List ScannedIndexEntry) := do
  match ← r.sidxFastPath activeId segmentId st.inBatch file with
  | some entries => return (st, entries)
  | none => do
      let (_, st, entries) ← r.frameScan policy segmentId st file
      return (st, entries)

/-! ### The full scan and the compaction copy -/

/-- Markers are skipped, events are decoded with their payload. -/
def fullHandle (r : SegmentReader) (segmentId offset _size : Nat) (msgpack : Bytes) (_ : Unit) :
    Except StoreError (Unit × List (FramePayload Json)) :=
  match r.fromBytes frameSerde msgpack with
  | .error e => .error (.corruptSegment segmentId
      ("frame at offset " ++ toString offset ++ " has unreadable payload: " ++ e))
  | .ok f =>
      match decodeFramePayloadValue f with
      | .error _ => .error (.corruptSegment segmentId
          ("frame at offset " ++ toString offset ++ " has unreadable payload"))
      | .ok payload => .ok ((), if payload.event.header.kind.isBatchMarker then [] else [payload])

/-- Where the loop stops, and the events. -/
def scanSegmentFull (r : SegmentReader) (segmentId : Nat) (file : Bytes) :
    Except StoreError (Nat × List (FramePayload Json)) := do
  let boundary ← r.detectSidxBoundary file segmentId
  let framesStart ← r.readSegmentHeader segmentId file
  let stop ← r.framesEnd file framesStart segmentId boundary true ""
  let (stop, (), entries) ← frameRounds
    (r.nextFrame false (fun _ => .corruptSegment segmentId) segmentId stop file)
    (r.fullHandle segmentId) file.length framesStart ()
  return (stop, entries)

/-- Where the copy stops, and the bytes it copies. The header is skipped unread. -/
def appendFramesFromSegment (r : SegmentReader) (file : Bytes) :
    Except StoreError (Nat × Bytes) := do
  let magic ← readExactAt file 0 4
  if magic ≠ segmentMagic then .error (.corruptSegment 0 "bad magic")
  else do
    let headerLenBuf ← readExactAt file 4 4
    let framesStart := 8 + ofBeBytes headerLenBuf
    let boundary ← r.detectSidxBoundary file 0
    let copyEnd ← r.framesEnd file framesStart 0 boundary true " during compaction copy"
    return (copyEnd, (file.drop framesStart).take (copyEnd - framesStart))

end SegmentReader

end Batpak.Store
