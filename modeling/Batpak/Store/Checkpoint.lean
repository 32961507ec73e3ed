/-
Module: Batpak.Store.Checkpoint
Purpose: The checkpoint file of the index, one serialized body behind a checksum, and its reader
  with the older versions it takes.
Trusted boundary: the checksum and the MessagePack codec are parameters
Main exports: CheckpointEntry, CheckpointData
-/
import Batpak.Store.IndexSnapshot
import Batpak.Store.SegmentFile

namespace Batpak.Store

open Batpak.Util

/-! ### Entries -/

structure CheckpointEntry where
  eventId : Nat
  correlationId : Nat
  causationId : Option Nat
  entityId : Nat
  scopeId : Nat
  kind : EventKind
  wallMs : Nat
  clock : Nat
  dagLane : Nat
  dagDepth : Nat
  prevHash : Digest
  eventHash : Digest
  segmentId : Nat
  offset : Nat
  length : Nat
  globalSequence : Nat
  receiptExtensions : Extensions
  deriving Repr, DecidableEq

/-- The values of an entry within their types. -/
structure CheckpointEntry.Typed (e : CheckpointEntry) : Prop where
  eventId : e.eventId < 256 ^ 16
  correlationId : e.correlationId < 256 ^ 16
  causationId : ∀ id ∈ e.causationId, id < 256 ^ 16
  entityId : e.entityId < 2 ^ 32
  scopeId : e.scopeId < 2 ^ 32
  kind : e.kind.raw < 2 ^ 16
  wallMs : e.wallMs < 2 ^ 64
  clock : e.clock < 2 ^ 32
  dagLane : e.dagLane < 2 ^ 32
  dagDepth : e.dagDepth < 2 ^ 32
  prevHash : e.prevHash < 256 ^ 32
  eventHash : e.eventHash < 256 ^ 32
  segmentId : e.segmentId < 2 ^ 64
  offset : e.offset < 2 ^ 64
  length : e.length < 2 ^ 32
  globalSequence : e.globalSequence < 2 ^ 64
  receiptExtensions : extensionsSerde.Fits e.receiptExtensions

def checkpointEntrySerde : Serde CheckpointEntry where
  ser e := structOf [
    ("event_id", u128.ser e.eventId),
    ("correlation_id", u128.ser e.correlationId),
    ("causation_id", optionU128.ser e.causationId),
    ("entity_id", (Serde.uint 32).ser e.entityId),
    ("scope_id", (Serde.uint 32).ser e.scopeId),
    ("kind", (Serde.uint 16).ser e.kind.raw),
    ("wall_ms", (Serde.uint 64).ser e.wallMs),
    ("clock", (Serde.uint 32).ser e.clock),
    ("dag_lane", (Serde.uint 32).ser e.dagLane),
    ("dag_depth", (Serde.uint 32).ser e.dagDepth),
    ("prev_hash", hash32.ser e.prevHash),
    ("event_hash", hash32.ser e.eventHash),
    ("segment_id", (Serde.uint 64).ser e.segmentId),
    ("offset", (Serde.uint 64).ser e.offset),
    ("length", (Serde.uint 32).ser e.length),
    ("global_sequence", (Serde.uint 64).ser e.globalSequence),
    ("receipt_extensions", extensionsSerde.ser e.receiptExtensions)]
  de m := do
    let fields ← structFields m
    let eventId ← required u128 "event_id" fields
    let correlationId ← required u128 "correlation_id" fields
    let causationId ← required optionU128 "causation_id" fields
    let entityId ← required (.uint 32) "entity_id" fields
    let scopeId ← required (.uint 32) "scope_id" fields
    let kind ← required (.uint 16) "kind" fields
    let wallMs ← required (.uint 64) "wall_ms" fields
    let clock ← required (.uint 32) "clock" fields
    let dagLane ← defaulted (.uint 32) 0 "dag_lane" fields
    let dagDepth ← defaulted (.uint 32) 0 "dag_depth" fields
    let prevHash ← required hash32 "prev_hash" fields
    let eventHash ← required hash32 "event_hash" fields
    let segmentId ← required (.uint 64) "segment_id" fields
    let offset ← required (.uint 64) "offset" fields
    let length ← required (.uint 32) "length" fields
    let globalSequence ← required (.uint 64) "global_sequence" fields
    let receiptExtensions ← defaulted extensionsSerde [] "receipt_extensions" fields
    return {
      eventId, correlationId, causationId, entityId, scopeId, wallMs, clock, dagLane, dagDepth,
      prevHash, eventHash, segmentId, offset, length, globalSequence, receiptExtensions
      kind := ⟨kind⟩ }
  Fits := CheckpointEntry.Typed
  de_ser := by
    intro e typed
    apply bind_of_eq_some (structFields_structOf (by simp))
    apply bind_of_eq_some (required_ser "event_id" (by simp [fieldNamed]) typed.eventId)
    apply bind_of_eq_some (required_ser "correlation_id" (by simp [fieldNamed]) typed.correlationId)
    apply bind_of_eq_some (required_ser "causation_id" (by simp [fieldNamed]) typed.causationId)
    apply bind_of_eq_some (required_ser "entity_id" (by simp [fieldNamed]) typed.entityId)
    apply bind_of_eq_some (required_ser "scope_id" (by simp [fieldNamed]) typed.scopeId)
    apply bind_of_eq_some (required_ser "kind" (by simp [fieldNamed]) typed.kind)
    apply bind_of_eq_some (required_ser "wall_ms" (by simp [fieldNamed]) typed.wallMs)
    apply bind_of_eq_some (required_ser "clock" (by simp [fieldNamed]) typed.clock)
    apply bind_of_eq_some (defaulted_ser "dag_lane" (by simp [fieldNamed]) typed.dagLane)
    apply bind_of_eq_some (defaulted_ser "dag_depth" (by simp [fieldNamed]) typed.dagDepth)
    apply bind_of_eq_some (required_ser "prev_hash" (by simp [fieldNamed]) typed.prevHash)
    apply bind_of_eq_some (required_ser "event_hash" (by simp [fieldNamed]) typed.eventHash)
    apply bind_of_eq_some (required_ser "segment_id" (by simp [fieldNamed]) typed.segmentId)
    apply bind_of_eq_some (required_ser "offset" (by simp [fieldNamed]) typed.offset)
    apply bind_of_eq_some (required_ser "length" (by simp [fieldNamed]) typed.length)
    apply bind_of_eq_some (required_ser "global_sequence" (by simp [fieldNamed]) typed.globalSequence)
    apply bind_of_eq_some
      (defaulted_ser "receipt_extensions" (by simp [fieldNamed]) typed.receiptExtensions)
    rfl

namespace CheckpointEntry

def ofIndexEntry (e : InternedEntry) : CheckpointEntry where
  eventId := e.entry.eventId
  correlationId := e.entry.correlationId
  causationId := e.entry.causationId
  entityId := e.entityId
  scopeId := e.scopeId
  kind := e.entry.kind
  wallMs := e.entry.wallMs
  clock := e.entry.clock
  dagLane := e.entry.dagLane
  dagDepth := e.entry.dagDepth
  prevHash := e.entry.hashChain.prevHash
  eventHash := e.entry.hashChain.eventHash
  segmentId := e.entry.diskPos.segmentId
  offset := e.entry.diskPos.offset
  length := e.entry.diskPos.length
  globalSequence := e.entry.globalSequence
  receiptExtensions := e.entry.receiptExtensions

/-- A causation id of zero is dropped. -/
def toColdStartRow (e : CheckpointEntry) : ColdStartIndexRow where
  source := .checkpoint
  eventId := e.eventId
  correlationId := e.correlationId
  causationId := e.causationId.filter fun id => id ≠ 0
  entityId := e.entityId
  scopeId := e.scopeId
  kind := e.kind
  wallMs := e.wallMs
  clock := e.clock
  dagLane := e.dagLane
  dagDepth := e.dagDepth
  hashChain := ⟨e.prevHash, e.eventHash⟩
  diskPos := ⟨e.segmentId, e.offset, e.length⟩
  globalSequence := e.globalSequence

def toIndexEntry (e : CheckpointEntry) (internerStrings : List String) :
    Except StoreError InternedEntry := do
  let row ← e.toColdStartRow.toIndexEntry internerStrings
  return { row with entry := { row.entry with receiptExtensions := e.receiptExtensions } }

end CheckpointEntry

def checkpointEntriesToIndexEntries (entries : List CheckpointEntry)
    (internerStrings : List String) : Except StoreError (List InternedEntry) :=
  entries.mapM fun e => e.toIndexEntry internerStrings

/-! ### The body -/

structure CheckpointData where
  globalSequence : Nat
  watermarkSegmentId : Nat
  watermarkOffset : Nat
  internerStrings : List String
  routing : RoutingSummary
  reservedKindFallbacks : ReservedKindFallbackStats
  entries : List CheckpointEntry
  deriving DecidableEq

/-- The body of version six. -/
def checkpointDataSerde : Serde CheckpointData where
  ser d := structOf [
    ("global_sequence", (Serde.uint 64).ser d.globalSequence),
    ("watermark_segment_id", (Serde.uint 64).ser d.watermarkSegmentId),
    ("watermark_offset", (Serde.uint 64).ser d.watermarkOffset),
    ("interner_strings", Sidx.stringTable.ser d.internerStrings),
    ("routing", routingSerde.ser d.routing),
    ("reserved_kind_fallbacks", fallbackStatsSerde.ser d.reservedKindFallbacks),
    ("entries", (Serde.list checkpointEntrySerde).ser d.entries)]
  de m := do
    let fields ← structFields m
    let globalSequence ← required (.uint 64) "global_sequence" fields
    let watermarkSegmentId ← required (.uint 64) "watermark_segment_id" fields
    let watermarkOffset ← required (.uint 64) "watermark_offset" fields
    let internerStrings ← required Sidx.stringTable "interner_strings" fields
    let routing ← required routingSerde "routing" fields
    let reservedKindFallbacks ←
      defaulted fallbackStatsSerde .none "reserved_kind_fallbacks" fields
    let entries ← required (.list checkpointEntrySerde) "entries" fields
    return { globalSequence, watermarkSegmentId, watermarkOffset, internerStrings, routing,
             reservedKindFallbacks, entries }
  Fits d := d.globalSequence < 2 ^ 64 ∧ d.watermarkSegmentId < 2 ^ 64 ∧
    d.watermarkOffset < 2 ^ 64 ∧ routingSerde.Fits d.routing ∧
    fallbackStatsSerde.Fits d.reservedKindFallbacks ∧ ∀ e ∈ d.entries, e.Typed
  de_ser := by
    intro d ⟨hsequence, hsegment, hoffset, hrouting, hfallbacks, hentries⟩
    have hstrings : Sidx.stringTable.Fits d.internerStrings := fun _ _ => trivial
    have hlist : (Serde.list checkpointEntrySerde).Fits d.entries := hentries
    apply bind_of_eq_some (structFields_structOf (by simp))
    apply bind_of_eq_some (required_ser "global_sequence" (by simp [fieldNamed]) hsequence)
    apply bind_of_eq_some (required_ser "watermark_segment_id" (by simp [fieldNamed]) hsegment)
    apply bind_of_eq_some (required_ser "watermark_offset" (by simp [fieldNamed]) hoffset)
    apply bind_of_eq_some (required_ser "interner_strings" (by simp [fieldNamed]) hstrings)
    apply bind_of_eq_some (required_ser "routing" (by simp [fieldNamed]) hrouting)
    apply bind_of_eq_some
      (defaulted_ser "reserved_kind_fallbacks" (by simp [fieldNamed]) hfallbacks)
    apply bind_of_eq_some (required_ser "entries" (by simp [fieldNamed]) hlist)
    rfl

/-- The bodies of versions two to four: no counters, and in version two no routing either. -/
def olderCheckpointData (hasRouting : Bool) (m : Msgpack) : Option CheckpointData := do
  let fields ← structFields m
  let globalSequence ← required (.uint 64) "global_sequence" fields
  let watermarkSegmentId ← required (.uint 64) "watermark_segment_id" fields
  let watermarkOffset ← required (.uint 64) "watermark_offset" fields
  let internerStrings ← required Sidx.stringTable "interner_strings" fields
  let routing ← if hasRouting then required routingSerde "routing" fields else some default
  let entries ← required (.list checkpointEntrySerde) "entries" fields
  return { globalSequence, watermarkSegmentId, watermarkOffset, internerStrings, routing,
           reservedKindFallbacks := .none, entries }

/-! ### Writing -/

/-- `FBATCK` -/
def checkpointMagic : Bytes := [0x46, 0x42, 0x41, 0x54, 0x43, 0x4B]

def checkpointVersion : UInt16 := 6

/-- Magic, version and checksum. -/
def checkpointHeaderLen : Nat := 12

def checkpointFile (crc : Crc32) (body : Bytes) : Bytes :=
  checkpointMagic ++ (putLe checkpointVersion ++ (putLe (crc.hash body) ++ body))

/-- The entries in sequence order, and the routing as the reader will see it. -/
def checkpointData (index : InternedIndex) (watermark : WatermarkInfo)
    (reservedKindFallbacks : ReservedKindFallbackStats) : Except StoreError CheckpointData := do
  let entries := (index.entries.map CheckpointEntry.ofIndexEntry).insertionSort
    fun a b => a.globalSequence ≤ b.globalSequence
  let internerStrings := index.interner.fullSnapshot
  let rebuilt ← checkpointEntriesToIndexEntries entries internerStrings
  return {
    globalSequence := index.globalSequence
    watermarkSegmentId := watermark.watermarkSegmentId
    watermarkOffset := watermark.watermarkOffset
    internerStrings
    routing := RoutingSummary.fromSortedEntries (rebuilt.map (·.entry))
      (recommendedRestoreChunkCount entries.length)
    reservedKindFallbacks
    entries }

/-- The bytes of the file that replaces the checkpoint. -/
def writeCheckpoint (r : SegmentReader) (index : InternedIndex) (watermark : WatermarkInfo)
    (reservedKindFallbacks : ReservedKindFallbackStats) : Except StoreError Bytes := do
  let data ← checkpointData index watermark reservedKindFallbacks
  let body ← (r.codec.write (checkpointDataSerde.ser data)).mapError .serialization
  return checkpointFile r.crc body

/-! ### Reading -/

structure LoadedCheckpointFile where
  version : Nat
  body : Bytes
  deriving DecidableEq

/-- The file is not there, cannot be read, or has these bytes. The version is looked at before
the checksum, which does not cover it. -/
def readCheckpointFile (crc : Crc32) :
    Except String (Option Bytes) → FileLoad LoadedCheckpointFile
  | .error e => .invalid ("read failed: " ++ e)
  | .ok none => .missing
  | .ok (some raw) =>
      if raw.length < checkpointHeaderLen then
        .invalid ("checkpoint file too short: " ++ toString raw.length ++ " bytes")
      else if raw.take 6 ≠ checkpointMagic then .invalid "wrong magic bytes"
      else
        let version := (getLe UInt16 (raw.drop 6)).1.toNat
        if checkpointVersion.toNat < version then .futureVersion version checkpointVersion.toNat
        else
          let storedCrc := (getLe UInt32 (raw.drop 8)).1
          let body := raw.drop checkpointHeaderLen
          if storedCrc ≠ crc.hash body then
            .invalid ("crc mismatch: stored " ++ toString storedCrc.toNat ++ ", computed "
              ++ toString (crc.hash body).toNat)
          else .loaded ⟨version, body⟩

/-- The body of any version the reader takes; the routing of version two is computed. -/
def decodeCheckpointData (r : SegmentReader) (version : Nat) (body : Bytes) :
    Option CheckpointData :=
  match r.codec.read body with
  | .error _ => none
  | .ok m =>
      match version with
      | 2 => do
          let data ← olderCheckpointData false m
          match checkpointEntriesToIndexEntries data.entries data.internerStrings with
          | .error _ => none
          | .ok rebuilt =>
              some { data with
                routing := RoutingSummary.fromSortedEntries (rebuilt.map (·.entry))
                  (recommendedRestoreChunkCount data.entries.length) }
      | 3 | 4 => olderCheckpointData true m
      | 5 | 6 => checkpointDataSerde.de m
      | _ => none

def validateCheckpointWatermark (dir : ColdStartDir) (data : CheckpointData) :
    FileLoad WatermarkInfo :=
  match validateWatermarkSegment dir data.watermarkSegmentId data.watermarkOffset with
  | .ok () => .loaded ⟨data.watermarkSegmentId, data.watermarkOffset⟩
  | .error (.missingSegment path) => .invalid ("checkpoint watermark segment is missing: " ++ path)
  | .error (.offsetPastTail path _ offset) => .invalid ("checkpoint watermark " ++ toString offset
      ++ " points past segment tail " ++ path)

structure LoadedCheckpointSnapshot where
  entries : List InternedEntry
  internerStrings : List String
  watermark : WatermarkInfo
  storedAllocator : Nat
  routing : RoutingSummary
  cumulativeReservedKindFallbacks : ReservedKindFallbackStats
  receiptExtensionsHydrated : Bool
  deriving DecidableEq

/-- The current version is rebuilt in one go. -/
def rebuildCurrentEntries (data : CheckpointData) : Except StoreError (List InternedEntry) :=
  checkpointEntriesToIndexEntries data.entries data.internerStrings

/-- An older version is rebuilt chunk by chunk. -/
def rebuildOlderEntries (data : CheckpointData) : Except StoreError (List InternedEntry) :=
  ((restoreChunkRanges data.entries.length data.routing).mapM fun range =>
    if usizeMax < range.1 + range.2 then
      .error (.serialization "checkpoint restore chunk range overflowed")
    else if data.entries.length < range.1 + range.2 then
      .error (.serialization "checkpoint restore chunk range out of bounds")
    else
      checkpointEntriesToIndexEntries (stretch data.entries range.1 range.2)
        data.internerStrings).map List.flatten

def loadCheckpointSnapshot (r : SegmentReader) (dir : ColdStartDir)
    (file : Except String (Option Bytes)) : FileLoad LoadedCheckpointSnapshot :=
  (readCheckpointFile r.crc file).bind fun raw =>
    match decodeCheckpointData r raw.version raw.body with
    | none => .invalid
        (if raw.version = checkpointVersion.toNat then "checkpoint snapshot body decode failed"
         else "checkpoint body decode failed for version " ++ toString raw.version)
    | some data => (validateCheckpointWatermark dir data).bind fun watermark =>
        let current : Bool := raw.version = checkpointVersion.toNat
        match if current then rebuildCurrentEntries data else rebuildOlderEntries data with
        | .error e => .invalid
            ("checkpoint snapshot entry rebuild failed: " ++ dir.errorText e)
        | .ok entries => .loaded {
            entries
            internerStrings := data.internerStrings
            watermark
            storedAllocator := data.globalSequence
            routing := data.routing
            cumulativeReservedKindFallbacks := data.reservedKindFallbacks
            receiptExtensionsHydrated := current }

end Batpak.Store
