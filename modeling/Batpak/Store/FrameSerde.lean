/-
Module: Batpak.Store.FrameSerde
Purpose: The serialized form of a segment header and of a frame.
Trusted boundary: a struct is read from a map, the form it is written in
Main exports: hash32, vecU8
-/
import Batpak.Store.Payload
import Batpak.Util.Serde

namespace Batpak.Store

open Batpak.Util

/-! ### Byte arrays and maps -/

def vecU8 : Serde Bytes where
  ser := bytesToMsgpack
  de := bytesOfMsgpack
  Fits _ := True
  de_ser bytes _ := bytesOfMsgpack_bytesToMsgpack bytes

/-- `[u8; 32]` -/
def readHash32 (m : Msgpack) : Option Bytes := do
  let bytes ← bytesOfMsgpack m
  if bytes.length = 32 then some bytes else none

def hash32 : Serde Digest where
  ser digest := bytesToMsgpack (beBytes 32 digest)
  de m := (readHash32 m).map beValue
  Fits digest := digest < 256 ^ 32
  de_ser := by
    intro digest h
    simp [readHash32, bytesOfMsgpack_bytesToMsgpack, beValue_beBytes h]

/-- `BTreeMap<ExtensionKey, EncodedBytes>` -/
def extensionsSerde : Serde Extensions :=
  .sortedMap .string vecU8

def u128 : Serde Nat :=
  .bin 16

def optionU128 : Serde (Option Nat) :=
  .option u128 fun _ => Msgpack.noConfusion

/-! ### The event -/

/-- The clock part of a header. The counter of a position is always zero. -/
structure DagPosition where
  wallMs : Nat
  depth : Nat
  lane : Nat
  sequence : Nat

def dagPositionSerde : Serde DagPosition where
  ser p := structOf [
    ("wall_ms", (Serde.uint 64).ser p.wallMs),
    ("counter", (Serde.uint 16).ser 0),
    ("depth", (Serde.uint 32).ser p.depth),
    ("lane", (Serde.uint 32).ser p.lane),
    ("sequence", (Serde.uint 32).ser p.sequence)]
  de m := do
    let fields ← structFields m
    let wallMs ← required (.uint 64) "wall_ms" fields
    let _ ← required (.uint 16) "counter" fields
    let depth ← required (.uint 32) "depth" fields
    let lane ← required (.uint 32) "lane" fields
    let sequence ← required (.uint 32) "sequence" fields
    return { wallMs, depth, lane, sequence }
  Fits p := p.wallMs < 2 ^ 64 ∧ p.depth < 2 ^ 32 ∧ p.lane < 2 ^ 32 ∧ p.sequence < 2 ^ 32
  de_ser := by
    intro p ⟨hwall, hdepth, hlane, hsequence⟩
    apply bind_of_eq_some (structFields_structOf (by simp))
    apply bind_of_eq_some (required_ser "wall_ms" (by simp [fieldNamed]) hwall)
    apply bind_of_eq_some (@required_ser _ _ 0 "counter" _ (by simp [fieldNamed]) (Nat.two_pow_pos 16))
    apply bind_of_eq_some (required_ser "depth" (by simp [fieldNamed]) hdepth)
    apply bind_of_eq_some (required_ser "lane" (by simp [fieldNamed]) hlane)
    apply bind_of_eq_some (required_ser "sequence" (by simp [fieldNamed]) hsequence)
    rfl

/-- The numbers of a header within their types. -/
structure EventHeader.Typed (h : EventHeader) : Prop where
  eventId : h.eventId < 256 ^ 16
  correlationId : h.correlationId < 256 ^ 16
  causationId : ∀ id ∈ h.causationId, id < 256 ^ 16
  timestampUs : -2 ^ 63 ≤ h.timestampUs ∧ h.timestampUs < 2 ^ 63
  position : h.wallMs < 2 ^ 64 ∧ h.dagDepth < 2 ^ 32 ∧ h.dagLane < 2 ^ 32 ∧ h.clock < 2 ^ 32
  payloadSize : h.payloadSize < 2 ^ 32
  kind : h.kind.raw < 2 ^ 16
  flags : h.flags < 2 ^ 8
  contentHash : h.contentHash < 256 ^ 32
  payloadVersion : h.payloadVersion < 2 ^ 16

def eventHeaderSerde : Serde EventHeader where
  ser h := structOf [
    ("event_id", u128.ser h.eventId),
    ("correlation_id", u128.ser h.correlationId),
    ("causation_id", optionU128.ser h.causationId),
    ("timestamp_us", (Serde.sint 64).ser h.timestampUs),
    ("position", dagPositionSerde.ser ⟨h.wallMs, h.dagDepth, h.dagLane, h.clock⟩),
    ("payload_size", (Serde.uint 32).ser h.payloadSize),
    ("event_kind", (Serde.uint 16).ser h.kind.raw),
    ("flags", (Serde.uint 8).ser h.flags),
    ("content_hash", hash32.ser h.contentHash),
    ("payload_version", (Serde.uint 16).ser h.payloadVersion)]
  de m := do
    let fields ← structFields m
    let eventId ← required u128 "event_id" fields
    let correlationId ← required u128 "correlation_id" fields
    let causationId ← defaulted optionU128 none "causation_id" fields
    let timestampUs ← required (.sint 64) "timestamp_us" fields
    let position ← required dagPositionSerde "position" fields
    let payloadSize ← required (.uint 32) "payload_size" fields
    let kind ← required (.uint 16) "event_kind" fields
    let flags ← required (.uint 8) "flags" fields
    let contentHash ← defaulted hash32 0 "content_hash" fields
    let payloadVersion ← defaulted (.uint 16) 0 "payload_version" fields
    return {
      eventId, correlationId, causationId, timestampUs, payloadSize, flags, contentHash, payloadVersion
      wallMs := position.wallMs
      clock := position.sequence
      dagLane := position.lane
      dagDepth := position.depth
      kind := ⟨kind⟩ }
  Fits := EventHeader.Typed
  de_ser := by
    intro h typed
    apply bind_of_eq_some (structFields_structOf (by simp))
    apply bind_of_eq_some (required_ser "event_id" (by simp [fieldNamed]) typed.eventId)
    apply bind_of_eq_some (required_ser "correlation_id" (by simp [fieldNamed]) typed.correlationId)
    apply bind_of_eq_some (defaulted_ser "causation_id" (by simp [fieldNamed]) typed.causationId)
    apply bind_of_eq_some (required_ser "timestamp_us" (by simp [fieldNamed]) typed.timestampUs)
    apply bind_of_eq_some (@required_ser _ _ ⟨h.wallMs, h.dagDepth, h.dagLane, h.clock⟩ "position" _
      (by simp [fieldNamed]) typed.position)
    apply bind_of_eq_some (required_ser "payload_size" (by simp [fieldNamed]) typed.payloadSize)
    apply bind_of_eq_some (required_ser "event_kind" (by simp [fieldNamed]) typed.kind)
    apply bind_of_eq_some (required_ser "flags" (by simp [fieldNamed]) typed.flags)
    apply bind_of_eq_some (defaulted_ser "content_hash" (by simp [fieldNamed]) typed.contentHash)
    apply bind_of_eq_some (defaulted_ser "payload_version" (by simp [fieldNamed]) typed.payloadVersion)
    rfl

def hashChainSerde : Serde HashChain where
  ser c := structOf [("prev_hash", hash32.ser c.prevHash), ("event_hash", hash32.ser c.eventHash)]
  de m := do
    let fields ← structFields m
    let prevHash ← required hash32 "prev_hash" fields
    let eventHash ← required hash32 "event_hash" fields
    return { prevHash, eventHash }
  Fits c := c.prevHash < 256 ^ 32 ∧ c.eventHash < 256 ^ 32
  de_ser := by
    intro c ⟨hprev, hevent⟩
    apply bind_of_eq_some (structFields_structOf (by simp))
    apply bind_of_eq_some (required_ser "prev_hash" (by simp [fieldNamed]) hprev)
    apply bind_of_eq_some (required_ser "event_hash" (by simp [fieldNamed]) hevent)
    rfl

def optionHashChain : Serde (Option HashChain) :=
  .option hashChainSerde fun _ => Msgpack.noConfusion

/-- The payload as it was serialized. -/
def rawPayload : Serde Msgpack where
  ser m := m
  de m := some m
  Fits _ := True
  de_ser _ _ := rfl

def eventSerde : Serde (Event Msgpack) where
  ser e := structOf [
    ("header", eventHeaderSerde.ser e.header),
    ("payload", rawPayload.ser e.payload),
    ("hash_chain", optionHashChain.ser e.hashChain)]
  de m := do
    let fields ← structFields m
    let header ← required eventHeaderSerde "header" fields
    let payload ← required rawPayload "payload" fields
    let hashChain ← defaulted optionHashChain none "hash_chain" fields
    return { header, payload, hashChain }
  Fits e := e.header.Typed ∧ optionHashChain.Fits e.hashChain
  de_ser := by
    intro e ⟨hheader, hchain⟩
    apply bind_of_eq_some (structFields_structOf (by simp))
    apply bind_of_eq_some (required_ser "header" (by simp [fieldNamed]) hheader)
    apply bind_of_eq_some (@required_ser _ _ e.payload "payload" _ (by simp [fieldNamed]) trivial)
    apply bind_of_eq_some (defaulted_ser "hash_chain" (by simp [fieldNamed]) hchain)
    rfl

/-! ### The frame -/

def frameSerde : Serde StoredFrame where
  ser f := structOf [
    ("event", eventSerde.ser f.event),
    ("entity", Serde.string.ser f.coord.entity),
    ("scope", Serde.string.ser f.coord.scope),
    ("receipt_extensions", extensionsSerde.ser f.receiptExtensions)]
  de m := do
    let fields ← structFields m
    let event ← required eventSerde "event" fields
    let entity ← required .string "entity" fields
    let scope ← required .string "scope" fields
    let receiptExtensions ← defaulted extensionsSerde [] "receipt_extensions" fields
    return { event, coord := ⟨entity, scope⟩, receiptExtensions }
  Fits f := eventSerde.Fits f.event ∧ extensionsSerde.Fits f.receiptExtensions
  de_ser := by
    intro f ⟨hevent, hextensions⟩
    apply bind_of_eq_some (structFields_structOf (by simp))
    apply bind_of_eq_some (required_ser "event" (by simp [fieldNamed]) hevent)
    apply bind_of_eq_some (@required_ser _ _ f.coord.entity "entity" _ (by simp [fieldNamed]) trivial)
    apply bind_of_eq_some (@required_ser _ _ f.coord.scope "scope" _ (by simp [fieldNamed]) trivial)
    apply bind_of_eq_some (defaulted_ser "receipt_extensions" (by simp [fieldNamed]) hextensions)
    rfl

/-- Only the content hash of a frame; its header and its payload may be anything. -/
def frameEventHash (m : Msgpack) : Option Bytes := do
  let fields ← structFields m
  let event ← required rawPayload "event" fields
  let eventFields ← structFields event
  let _ ← required rawPayload "header" eventFields
  let _ ← required rawPayload "payload" eventFields
  match fieldNamed "hash_chain" eventFields with
  | none | some .nil => none
  | some chain => do
      let chainFields ← structFields chain
      let prevHash ← fieldNamed "prev_hash" chainFields
      let _ ← readHash32 prevHash
      let eventHash ← fieldNamed "event_hash" chainFields
      readHash32 eventHash

/-! ### The segment header -/

structure SegmentHeader where
  version : Nat
  flags : Nat
  createdNs : Int
  segmentId : Nat
  deriving Repr, DecidableEq

def segmentHeaderSerde : Serde SegmentHeader where
  ser h := structOf [
    ("version", (Serde.uint 16).ser h.version),
    ("flags", (Serde.uint 16).ser h.flags),
    ("created_ns", (Serde.sint 64).ser h.createdNs),
    ("segment_id", (Serde.uint 64).ser h.segmentId)]
  de m := do
    let fields ← structFields m
    let version ← required (.uint 16) "version" fields
    let flags ← required (.uint 16) "flags" fields
    let createdNs ← required (.sint 64) "created_ns" fields
    let segmentId ← required (.uint 64) "segment_id" fields
    return { version, flags, createdNs, segmentId }
  Fits h := h.version < 2 ^ 16 ∧ h.flags < 2 ^ 16 ∧
    (-2 ^ 63 ≤ h.createdNs ∧ h.createdNs < 2 ^ 63) ∧ h.segmentId < 2 ^ 64
  de_ser := by
    intro h ⟨hversion, hflags, hcreated, hsegment⟩
    apply bind_of_eq_some (structFields_structOf (by simp))
    apply bind_of_eq_some (required_ser "version" (by simp [fieldNamed]) hversion)
    apply bind_of_eq_some (required_ser "flags" (by simp [fieldNamed]) hflags)
    apply bind_of_eq_some (required_ser "created_ns" (by simp [fieldNamed]) hcreated)
    apply bind_of_eq_some (required_ser "segment_id" (by simp [fieldNamed]) hsegment)
    rfl

end Batpak.Store
