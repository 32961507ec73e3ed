/-
Module: Batpak.Store.MmapIndex
Purpose: The memory-mapped snapshot of the index: its rows, sections and header, and the reader
  that checks all of it before it decodes the rows chunk by chunk.
Trusted boundary: checksum, MessagePack codec, content digest and the mapping are parameters
Main exports: MmapIndexEntry, MmapCodec
-/
import Batpak.Store.IndexSnapshot
import Batpak.Store.SegmentFile

namespace Batpak.Store

open Batpak.Util

/-! ### Rows -/

/-- `[u8; 32]` of a digest. -/
def hashBytes (digest : Digest) : Vector UInt8 32 :=
  ⟨(beBytes 32 digest).toArray, by simp⟩

structure MmapIndexEntry where
  eventId : BitVec 128
  entityIdx : UInt32
  scopeIdx : UInt32
  kind : UInt16
  wallMs : UInt64
  clock : UInt32
  dagLane : UInt32
  dagDepth : UInt32
  prevHash : Vector UInt8 32
  eventHash : Vector UInt8 32
  segmentId : UInt64
  frameOffset : UInt64
  frameLength : UInt32
  globalSequence : UInt64
  correlationId : BitVec 128
  causationId : BitVec 128
  extensionOffset : UInt64
  extensionLen : UInt64
  extensionHash : Vector UInt8 32
  deriving DecidableEq

/-- The width of a row: lanes came with version three, extensions with version five. -/
def mmapEntrySize (version : Nat) : Nat :=
  if 5 ≤ version then 218 else if 3 ≤ version then 170 else 162

def mmapHeaderTailLen (version : Nat) : Nat :=
  if version = 1 then 44 else if 5 ≤ version then 60 else 52

def mmapPrefixLen : Nat := 12

def mmapHeaderLen (version : Nat) : Nat :=
  mmapPrefixLen + mmapHeaderTailLen version

namespace MmapIndexEntry

/-- No causation id is a causation id of zero. -/
def fromIndexEntry (e : InternedEntry) : MmapIndexEntry where
  eventId := BitVec.ofNat 128 e.entry.eventId
  entityIdx := UInt32.ofNat e.entityId
  scopeIdx := UInt32.ofNat e.scopeId
  kind := UInt16.ofNat e.entry.kind.raw
  wallMs := UInt64.ofNat e.entry.wallMs
  clock := UInt32.ofNat e.entry.clock
  dagLane := UInt32.ofNat e.entry.dagLane
  dagDepth := UInt32.ofNat e.entry.dagDepth
  prevHash := hashBytes e.entry.hashChain.prevHash
  eventHash := hashBytes e.entry.hashChain.eventHash
  segmentId := UInt64.ofNat e.entry.diskPos.segmentId
  frameOffset := UInt64.ofNat e.entry.diskPos.offset
  frameLength := UInt32.ofNat e.entry.diskPos.length
  globalSequence := UInt64.ofNat e.entry.globalSequence
  correlationId := BitVec.ofNat 128 e.entry.correlationId
  causationId := BitVec.ofNat 128 (e.entry.causationId.getD 0)
  extensionOffset := 0
  extensionLen := 0
  extensionHash := Vector.replicate 32 0

def toColdStartRowCounted (e : MmapIndexEntry) (counts : ReservedKindFallbackStats) :
    ColdStartIndexRow × ReservedKindFallbackStats :=
  let (kind, counts) := rawToKindCounted e.kind.toNat counts
  ({ source := .mmapIndex
     eventId := e.eventId.toNat
     correlationId := e.correlationId.toNat
     causationId := causationOfWire e.causationId.toNat
     entityId := e.entityIdx.toNat
     scopeId := e.scopeIdx.toNat
     kind
     wallMs := e.wallMs.toNat
     clock := e.clock.toNat
     dagLane := e.dagLane.toNat
     dagDepth := e.dagDepth.toNat
     hashChain := ⟨beValue e.prevHash.toList, beValue e.eventHash.toList⟩
     diskPos := ⟨e.segmentId.toNat, e.frameOffset.toNat, e.frameLength.toNat⟩
     globalSequence := e.globalSequence.toNat }, counts)

/-- The row of version three, followed by the extension fields of version five. -/
def encodeInto (e : MmapIndexEntry) (rest : Bytes) : Bytes :=
  putLe e.eventId ++ (putLe e.entityIdx ++ (putLe e.scopeIdx ++ (putLe e.kind ++
  (putLe e.wallMs ++ (putLe e.clock ++ (putLe e.dagLane ++ (putLe e.dagDepth ++
  (e.prevHash.toList ++ (e.eventHash.toList ++
  (putLe e.segmentId ++ (putLe e.frameOffset ++ (putLe e.frameLength ++
  (putLe e.globalSequence ++ (putLe e.correlationId ++ (putLe e.causationId ++ rest)))))))))))))))

def encodeIntoV5 (e : MmapIndexEntry) : Bytes :=
  e.encodeInto (putLe e.extensionOffset ++ (putLe e.extensionLen ++ e.extensionHash.toList))

def decodeFrom (buf : Bytes) (version : Nat) : Except StoreError MmapIndexEntry :=
  if buf.length ≠ mmapEntrySize version then
    .error (.serialization "mmap entry buffer has wrong size")
  else
    let (eventId, buf) := getLe (BitVec 128) buf
    let (entityIdx, buf) := getLe UInt32 buf
    let (scopeIdx, buf) := getLe UInt32 buf
    let (kind, buf) := getLe UInt16 buf
    let (wallMs, buf) := getLe UInt64 buf
    let (clock, buf) := getLe UInt32 buf
    let (dagLane, buf) := if 3 ≤ version then getLe UInt32 buf else (0, buf)
    let (dagDepth, buf) := if 3 ≤ version then getLe UInt32 buf else (0, buf)
    let (prevHash, buf) := getBytes 32 buf
    let (eventHash, buf) := getBytes 32 buf
    let (segmentId, buf) := getLe UInt64 buf
    let (frameOffset, buf) := getLe UInt64 buf
    let (frameLength, buf) := getLe UInt32 buf
    let (globalSequence, buf) := getLe UInt64 buf
    let (correlationId, buf) := getLe (BitVec 128) buf
    let (causationId, buf) := getLe (BitVec 128) buf
    let (extensionOffset, buf) := if 5 ≤ version then getLe UInt64 buf else (0, buf)
    let (extensionLen, buf) := if 5 ≤ version then getLe UInt64 buf else (0, buf)
    let (extensionHash, _) :=
      if 5 ≤ version then getBytes 32 buf else (Vector.replicate 32 0, buf)
    .ok { eventId, entityIdx, scopeIdx, kind, wallMs, clock, dagLane, dagDepth, prevHash,
          eventHash, segmentId, frameOffset, frameLength, globalSequence, correlationId,
          causationId, extensionOffset, extensionLen, extensionHash }

@[simp] theorem length_encodeIntoV5 (e : MmapIndexEntry) : e.encodeIntoV5.length = 218 := by
  simp [encodeIntoV5, encodeInto, FixedWidth.width]

theorem decodeFrom_encodeIntoV5 (e : MmapIndexEntry) : decodeFrom e.encodeIntoV5 5 = .ok e := by
  have hwidth : e.encodeIntoV5.length = mmapEntrySize 5 := length_encodeIntoV5 e
  have hhash : getBytes 32 e.extensionHash.toList = (e.extensionHash, []) := by
    simpa using getBytes_toList e.extensionHash []
  rw [decodeFrom, if_neg (not_not_intro hwidth)]
  simp [encodeIntoV5, encodeInto, hhash]

end MmapIndexEntry

/-! ### Receipt extensions -/

/-- The third-party parts of a snapshot file: checksum and codec, and the content hash. -/
structure MmapCodec extends SegmentReader where
  extensionBlobDigest : Bytes → Vector UInt8 32

namespace MmapCodec

/-- An empty map takes no bytes. -/
def encodeReceiptExtensions (c : MmapCodec) (extensions : Extensions) : Except StoreError Bytes :=
  if extensions = [] then .ok []
  else (c.codec.write (extensionsSerde.ser extensions)).mapError .serialization

def decodeReceiptExtensionsFromBlob (c : MmapCodec) (entry : MmapIndexEntry)
    (extensionBlob : Bytes) : Except StoreError Extensions :=
  if entry.extensionLen = 0 then .ok []
  else
    let offset := entry.extensionOffset.toNat
    let len := entry.extensionLen.toNat
    if usizeMax < offset + len then
      .error (.serialization "mmap receipt-extension range overflowed")
    else if extensionBlob.length < offset + len then
      .error (.serialization "mmap receipt-extension range exceeds blob section")
    else
      let bytes := stretch extensionBlob offset len
      if c.extensionBlobDigest bytes ≠ entry.extensionHash then
        .error (.serialization "mmap receipt-extension blob digest mismatch")
      else (c.fromBytes extensionsSerde bytes).mapError .serialization

end MmapCodec

/-! ### Writing -/

/-- `FBATIX` -/
def mmapIndexMagic : Bytes := [0x46, 0x42, 0x41, 0x54, 0x49, 0x58]

def mmapIndexVersion : UInt16 := 5

/-- The summary section; before version four it had no counters. -/
structure MmapSummaryData where
  routing : RoutingSummary
  reservedKindFallbacks : ReservedKindFallbackStats
  deriving DecidableEq

def mmapSummarySerde : Serde MmapSummaryData where
  ser d := structOf [
    ("routing", routingSerde.ser d.routing),
    ("reserved_kind_fallbacks", fallbackStatsSerde.ser d.reservedKindFallbacks)]
  de m := do
    let fields ← structFields m
    let routing ← required routingSerde "routing" fields
    let reservedKindFallbacks ←
      defaulted fallbackStatsSerde .none "reserved_kind_fallbacks" fields
    return { routing, reservedKindFallbacks }
  Fits d := routingSerde.Fits d.routing ∧ fallbackStatsSerde.Fits d.reservedKindFallbacks
  de_ser := by
    intro d ⟨hrouting, hfallbacks⟩
    apply bind_of_eq_some (structFields_structOf (by simp))
    apply bind_of_eq_some (required_ser "routing" (by simp [fieldNamed]) hrouting)
    apply bind_of_eq_some
      (defaulted_ser "reserved_kind_fallbacks" (by simp [fieldNamed]) hfallbacks)
    rfl

/-- The numbers behind the prefix. -/
structure MmapHeader where
  watermarkSegmentId : UInt64
  watermarkOffset : UInt64
  storedAllocator : UInt64
  internerCount : UInt32
  entryCount : UInt64
  internerBytesLen : UInt64
  summaryBytesLen : UInt64
  extensionBlobLen : UInt64
  deriving DecidableEq

def MmapHeader.tail (h : MmapHeader) : Bytes :=
  putLe h.watermarkSegmentId ++ (putLe h.watermarkOffset ++ (putLe h.storedAllocator ++
  (putLe h.internerCount ++ (putLe h.entryCount ++ (putLe h.internerBytesLen ++
  (putLe h.summaryBytesLen ++ putLe h.extensionBlobLen))))))

/-- The rows, and their extensions one behind the other. -/
def layMmapRows (c : MmapCodec) : List InternedEntry → Bytes →
    Except StoreError (List MmapIndexEntry × Bytes)
  | [], blob => .ok ([], blob)
  | e :: rest, blob => do
      let extensionBytes ← c.encodeReceiptExtensions e.entry.receiptExtensions
      let row :=
        if extensionBytes = [] then MmapIndexEntry.fromIndexEntry e
        else { MmapIndexEntry.fromIndexEntry e with
          extensionOffset := UInt64.ofNat blob.length
          extensionLen := UInt64.ofNat extensionBytes.length
          extensionHash := c.extensionBlobDigest extensionBytes }
      let (rows, blob) ← layMmapRows c rest (blob ++ extensionBytes)
      return (row :: rows, blob)

/-- The sections that the checksum covers, fed in the order they are written. -/
def mmapChecksum (crc : Crc32) (tail interner summary blob : Bytes) (rows : List MmapIndexEntry) :
    UInt32 :=
  let hasher := crc.update (crc.update (crc.update (crc.update crc.init tail) interner) summary) blob
  crc.finalize (rows.foldl (fun hasher row => crc.update hasher row.encodeIntoV5) hasher)

/-- The entries in sequence order with everything the reader needs to find them again. -/
def writeMmapIndex (c : MmapCodec) (index : InternedIndex) (watermark : WatermarkInfo)
    (reservedKindFallbacks : ReservedKindFallbackStats) : Except StoreError Bytes := do
  let entries := index.entries.insertionSort
    fun a b => a.entry.globalSequence ≤ b.entry.globalSequence
  let routing := RoutingSummary.fromSortedEntries (entries.map (·.entry))
    (recommendedRestoreChunkCount entries.length)
  let internerStrings := index.interner.fullSnapshot
  let internerBytes ←
    (c.codec.write (Sidx.stringTable.ser internerStrings)).mapError .serialization
  let summaryBytes ←
    (c.codec.write (mmapSummarySerde.ser ⟨routing, reservedKindFallbacks⟩)).mapError .serialization
  if 2 ^ 32 ≤ internerStrings.length then
    .error (.serialization "interner snapshot too large for mmap index")
  else do
    let (rows, extensionBlob) ← layMmapRows c entries []
    let header : MmapHeader := {
      watermarkSegmentId := UInt64.ofNat watermark.watermarkSegmentId
      watermarkOffset := UInt64.ofNat watermark.watermarkOffset
      storedAllocator := UInt64.ofNat index.globalSequence
      internerCount := UInt32.ofNat internerStrings.length
      entryCount := UInt64.ofNat entries.length
      internerBytesLen := UInt64.ofNat internerBytes.length
      summaryBytesLen := UInt64.ofNat summaryBytes.length
      extensionBlobLen := UInt64.ofNat extensionBlob.length }
    let file := mmapIndexMagic ++ (putLe mmapIndexVersion ++
      (putLe (mmapChecksum c.crc header.tail internerBytes summaryBytes extensionBlob rows) ++
      (header.tail ++ (internerBytes ++ (summaryBytes ++ (extensionBlob ++
      rows.flatMap MmapIndexEntry.encodeIntoV5))))))
    if Sidx.maxFileLen < file.length then .error (.io "File too large (os error 27)")
    else .ok file

/-! ### Reading the file -/

/-- The data directory with the snapshot file in it, and whether the file may be mapped. -/
structure MmapDir extends ColdStartDir where
  admitMmapIndex : Except String Unit
  mapMmapIndexFile : Except String Unit

/-- The header fields of a version; what a version lacks is zero. -/
def readMmapHeader (version : Nat) (tail : Bytes) : MmapHeader :=
  let (watermarkSegmentId, tail) := getLe UInt64 tail
  let (watermarkOffset, tail) := getLe UInt64 tail
  let (storedAllocator, tail) := getLe UInt64 tail
  let (internerCount, tail) := getLe UInt32 tail
  let (entryCount, tail) := getLe UInt64 tail
  let (internerBytesLen, tail) := getLe UInt64 tail
  let (summaryBytesLen, tail) := if version = 1 then (0, tail) else getLe UInt64 tail
  let (extensionBlobLen, _) := if 5 ≤ version then getLe UInt64 tail else (0, tail)
  { watermarkSegmentId, watermarkOffset, storedAllocator, internerCount, entryCount,
    internerBytesLen, summaryBytesLen, extensionBlobLen }

theorem readMmapHeader_tail (h : MmapHeader) : readMmapHeader 5 h.tail = h := by
  simp [readMmapHeader, MmapHeader.tail]

/-- Where the sections of a file begin. -/
structure MmapLayout where
  summaryOffset : Nat
  extensionBlobOffset : Nat
  entriesOffset : Nat
  expectedLen : Nat
  deriving Repr, DecidableEq

def MmapHeader.layout (h : MmapHeader) (version : Nat) : MmapLayout :=
  let summaryOffset := mmapHeaderLen version + h.internerBytesLen.toNat
  let extensionBlobOffset := summaryOffset + h.summaryBytesLen.toNat
  let entriesOffset := extensionBlobOffset + h.extensionBlobLen.toNat
  ⟨summaryOffset, extensionBlobOffset, entriesOffset,
    entriesOffset + h.entryCount.toNat * mmapEntrySize version⟩

structure LoadedMmapIndex where
  mmap : Bytes
  internerStrings : List String
  routing : RoutingSummary
  entriesOffset : Nat
  extensionBlobOffset : Nat
  extensionBlobLen : Nat
  entryCount : Nat
  entrySize : Nat
  version : Nat
  watermark : WatermarkInfo
  storedAllocator : Nat
  cumulativeReservedKindFallbacks : ReservedKindFallbackStats
  deriving DecidableEq

/-- The summary of versions two and three: routing only. -/
def olderMmapSummary (m : Msgpack) : Option MmapSummaryData := do
  let fields ← structFields m
  let routing ← required routingSerde "routing" fields
  return { routing, reservedKindFallbacks := .none }

def readMmapSummary (c : MmapCodec) (version : Nat) (bytes : Bytes) :
    Except String MmapSummaryData :=
  if version = 1 then .ok ⟨default, .none⟩
  else
    match c.codec.read bytes with
    | .error e => .error e
    | .ok m =>
        match if 4 ≤ version then mmapSummarySerde.de m else olderMmapSummary m with
        | some summary => .ok summary
        | none => .error "invalid type"

/-- The sections of a mapped file, once its checksum is right. -/
def readMmapSections (c : MmapCodec) (version : Nat) (header : MmapHeader) (raw : Bytes) :
    FileLoad LoadedMmapIndex :=
  let layout := header.layout version
  match c.fromBytes Sidx.stringTable
      (stretch raw (mmapHeaderLen version) header.internerBytesLen.toNat) with
  | .error e => .invalid ("failed to decode mmap index interner snapshot: " ++ e)
  | .ok internerStrings =>
      if internerStrings.length ≠ header.internerCount.toNat then
        .invalid ("mmap index interner count does not match header: expected "
          ++ toString header.internerCount.toNat ++ ", actual " ++ toString internerStrings.length)
      else
        match readMmapSummary c version
            (stretch raw layout.summaryOffset header.summaryBytesLen.toNat) with
        | .error e => .invalid ("failed to decode mmap index summary section: " ++ e)
        | .ok summary => .loaded {
            mmap := raw
            internerStrings
            routing := summary.routing
            entriesOffset := layout.entriesOffset
            extensionBlobOffset := layout.extensionBlobOffset
            extensionBlobLen := header.extensionBlobLen.toNat
            entryCount := header.entryCount.toNat
            entrySize := mmapEntrySize version
            version
            watermark := ⟨header.watermarkSegmentId.toNat, header.watermarkOffset.toNat⟩
            storedAllocator := header.storedAllocator.toNat
            cumulativeReservedKindFallbacks := summary.reservedKindFallbacks }

/-- The sizes and the watermark are checked before the file is mapped. -/
def checkMmapHeader (dir : MmapDir) (version : Nat) (header : MmapHeader) (fileLen : Nat) :
    Except String Unit :=
  let layout := header.layout version
  if usizeMax < header.entryCount.toNat * mmapEntrySize version then
    .error "mmap index entry section length overflowed"
  else if usizeMax < layout.summaryOffset then .error "mmap index header offset overflowed"
  else if usizeMax < layout.extensionBlobOffset then .error "mmap index summary offset overflowed"
  else if usizeMax < layout.entriesOffset then
    .error "mmap index extension blob offset overflowed"
  else if usizeMax < layout.expectedLen then .error "mmap index total length overflowed"
  else if fileLen ≠ layout.expectedLen then
    .error ("mmap index size does not match header: file " ++ toString fileLen ++ ", expected "
      ++ toString layout.expectedLen)
  else
    match validateWatermarkSegment dir.toColdStartDir header.watermarkSegmentId.toNat
        header.watermarkOffset.toNat with
    | .error (.offsetPastTail path _ offset) => .error ("mmap index watermark " ++ toString offset
        ++ " points past segment tail " ++ path)
    | .error (.missingSegment path) =>
        .error ("mmap index watermark segment is missing: " ++ path)
    | .ok () =>
        match dir.admitMmapIndex with
        | .error e => .error ("mmap index admission failed: " ++ e)
        | .ok () =>
            match dir.mapMmapIndexFile with
            | .error e => .error ("failed to mmap index file: " ++ e)
            | .ok () => .ok ()

/-- A newer version is refused before anything behind the version is looked at. -/
def loadMmapIndex (c : MmapCodec) (dir : MmapDir) :
    Except String (Option Bytes) → FileLoad LoadedMmapIndex
  | .error e => .invalid ("failed to open mmap index: " ++ e)
  | .ok none => .missing
  | .ok (some raw) =>
      if raw.length < mmapPrefixLen then
        .invalid "mmap index header is unreadable: failed to fill whole buffer"
      else if raw.take 6 ≠ mmapIndexMagic then .invalid "mmap index has wrong magic"
      else
        let version := (getLe UInt16 (raw.drop 6)).1.toNat
        if mmapIndexVersion.toNat < version then .futureVersion version mmapIndexVersion.toNat
        else if version = 0 then
          .invalid ("unsupported mmap index version " ++ toString version)
        else if raw.length < mmapHeaderLen version then
          .invalid "mmap index header tail is unreadable: failed to fill whole buffer"
        else
          let expectedCrc := (getLe UInt32 (raw.drop 8)).1
          let header := readMmapHeader version
            (stretch raw mmapPrefixLen (mmapHeaderTailLen version))
          match checkMmapHeader dir version header raw.length with
          | .error reason => .invalid reason
          | .ok () =>
              let actualCrc := c.crc.hash (raw.drop mmapPrefixLen)
              if actualCrc ≠ expectedCrc then
                .invalid ("mmap index CRC mismatch: expected " ++ toString expectedCrc.toNat
                  ++ ", actual " ++ toString actualCrc.toNat)
              else readMmapSections c version header raw

/-! ### Rebuilding the entries -/

structure LoadedMmapSnapshot where
  entries : List InternedEntry
  internerStrings : List String
  watermark : WatermarkInfo
  storedAllocator : Nat
  routing : RoutingSummary
  reopenReservedKindFallbacks : ReservedKindFallbackStats
  cumulativeReservedKindFallbacks : ReservedKindFallbackStats
  receiptExtensionsHydrated : Bool
  deriving DecidableEq

/-- One row as an index entry; unknown kinds are counted. -/
def rebuildMmapRow (c : MmapCodec) (version : Nat) (internerStrings : List String)
    (extensionBlob chunk : Bytes) (counts : ReservedKindFallbackStats) :
    Except StoreError (InternedEntry × ReservedKindFallbackStats) := do
  let row ← MmapIndexEntry.decodeFrom chunk version
  let (coldStartRow, counts) := row.toColdStartRowCounted counts
  let rebuilt ← coldStartRow.toIndexEntry internerStrings
  if 5 ≤ version then do
    let extensions ← c.decodeReceiptExtensionsFromBlob row extensionBlob
    return ({ rebuilt with entry := { rebuilt.entry with receiptExtensions := extensions } }, counts)
  else return (rebuilt, counts)

/-- The rows of a chunk, one after another. -/
def rebuildMmapRows (c : MmapCodec) (version : Nat) (internerStrings : List String)
    (extensionBlob : Bytes) : List Bytes → ReservedKindFallbackStats →
    Except StoreError (List InternedEntry × ReservedKindFallbackStats)
  | [], counts => .ok ([], counts)
  | chunk :: rest, counts => do
      let (rebuilt, counts) ← rebuildMmapRow c version internerStrings extensionBlob chunk counts
      let (more, counts) ← rebuildMmapRows c version internerStrings extensionBlob rest counts
      return (rebuilt :: more, counts)

/-- `chunks_exact`. -/
def chunksExact (size : Nat) (bytes : Bytes) : List Bytes :=
  (List.range (bytes.length / size)).map fun i => stretch bytes (i * size) size

/-- One chunk, with counters of its own. -/
def rebuildMmapChunk (c : MmapCodec) (loaded : LoadedMmapIndex) (entries extensionBlob : Bytes)
    (range : Nat × Nat) : Except StoreError (List InternedEntry × ReservedKindFallbackStats) :=
  let startByte := range.1 * loaded.entrySize
  let lenBytes := range.2 * loaded.entrySize
  if usizeMax < startByte then .error (.serialization "mmap restore chunk start overflowed")
  else if usizeMax < lenBytes then .error (.serialization "mmap restore chunk len overflowed")
  else if usizeMax < startByte + lenBytes then
    .error (.serialization "mmap restore chunk range overflowed")
  else if entries.length < startByte + lenBytes then
    .error (.serialization "mmap restore chunk range out of bounds")
  else
    rebuildMmapRows c loaded.version loaded.internerStrings extensionBlob
      (chunksExact loaded.entrySize (stretch entries startByte lenBytes)) .none

def loadMmapSnapshot (c : MmapCodec) (dir : MmapDir) (file : Except String (Option Bytes)) :
    FileLoad LoadedMmapSnapshot :=
  (loadMmapIndex c dir file).bind fun loaded =>
    let entriesLen := loaded.entryCount * loaded.entrySize
    let entriesEnd := loaded.entriesOffset + entriesLen
    let extensionBlobEnd := loaded.extensionBlobOffset + loaded.extensionBlobLen
    if usizeMax < entriesLen then .invalid "mmap restore entry bytes length overflowed"
    else if usizeMax < entriesEnd then .invalid "mmap restore entries range overflowed"
    else if loaded.mmap.length < entriesEnd then
      .invalid "mmap restore entries range is out of bounds"
    else if usizeMax < extensionBlobEnd then
      .invalid "mmap restore extension blob range overflowed"
    else if loaded.mmap.length < extensionBlobEnd then
      .invalid "mmap restore extension blob range is out of bounds"
    else
      let entriesSlice := stretch loaded.mmap loaded.entriesOffset entriesLen
      let extensionBlob := stretch loaded.mmap loaded.extensionBlobOffset loaded.extensionBlobLen
      match (restoreChunkRanges loaded.entryCount loaded.routing).mapM
          (rebuildMmapChunk c loaded entriesSlice extensionBlob) with
      | .error e => .invalid ("mmap snapshot entry rebuild failed: " ++ dir.errorText e)
      | .ok perChunk =>
          let entries := perChunk.flatMap (·.1)
          .loaded {
            entries
            internerStrings := loaded.internerStrings
            watermark := loaded.watermark
            storedAllocator := loaded.storedAllocator
            routing :=
              if loaded.routing.chunks = [] then
                RoutingSummary.fromSortedEntries (entries.map (·.entry))
                  (recommendedRestoreChunkCount entries.length)
              else loaded.routing
            reopenReservedKindFallbacks :=
              perChunk.foldl (fun counts chunk => counts.mergeFrom chunk.2) .none
            cumulativeReservedKindFallbacks := loaded.cumulativeReservedKindFallbacks
            receiptExtensionsHydrated := 5 ≤ loaded.version }

end Batpak.Store
