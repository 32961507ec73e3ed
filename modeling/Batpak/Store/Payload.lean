/-
Module: Batpak.Store.Payload
Purpose: What the payload field of a frame holds on disk and how each reader decodes it.
Trusted boundary: MessagePack round-trips the frame around the payload field (its header,
  hash chain, coordinate and extensions have one type on both sides)
Main exports: Json, FramePayload
-/
import Batpak.Store.DataDir
import Batpak.Util.Msgpack

namespace Batpak.Store

open Batpak.Util

/-! ### JSON values -/

/-- `serde_json::Value`. Strings are their UTF-8 bytes, objects are in key order, floats
are the bits of a finite `f64`. -/
inductive Json where
  | null
  | bool (b : Bool)
  | int (n : Int)
  | float (bits : Nat)
  | string (bytes : Bytes)
  | array (items : List Json)
  | object (entries : List (Bytes × Json))
  deriving Inhabited

namespace Json

/-- The exponent bits of an `f64` are all set: infinite or not a number. -/
def floatIsFinite (bits : Nat) : Bool :=
  bits / 2 ^ 52 % 2 ^ 11 ≠ 2 ^ 11 - 1

/-- `Number::from_f64`: a float that is not finite becomes `null`. -/
def ofFloat (bits : Nat) : Json :=
  if floatIsFinite bits then .float bits else .null

/-- The `f64` bits of a finite `f32`, and of the infinities. -/
def widenFloat (bits : Nat) : Nat :=
  let sign := bits / 2 ^ 31
  let exponent := bits / 2 ^ 23 % 2 ^ 8
  let mantissa := bits % 2 ^ 23
  let magnitude :=
    if exponent = 255 then (2 ^ 11 - 1) * 2 ^ 52 + mantissa * 2 ^ 29
    else if 0 < exponent then (exponent + 896) * 2 ^ 52 + mantissa * 2 ^ 29
    else if mantissa = 0 then 0
    else
      -- a subnormal `f32` is a normal `f64`
      let top := mantissa.log2
      (top + 874) * 2 ^ 52 + (mantissa - 2 ^ top) * 2 ^ (52 - top)
  sign * 2 ^ 63 + magnitude

def validUtf8 (bytes : Bytes) : Bool :=
  (ByteArray.mk bytes.toArray).validateUTF8

/-- Bytewise order of `String`. -/
def keyLt : Bytes → Bytes → Bool
  | [], [] => false
  | [], _ :: _ => true
  | _ :: _, [] => false
  | a :: as, b :: bs => a < b || (a = b && keyLt as bs)

/-- `Map::insert`: a key read twice keeps its last value. -/
def insertKey (key : Bytes) (value : Json) : List (Bytes × Json) → List (Bytes × Json)
  | [] => [(key, value)]
  | (k, v) :: rest =>
      if keyLt key k then (key, value) :: (k, v) :: rest
      else if key = k then (key, value) :: rest
      else (k, v) :: insertKey key value rest

/-- An object key. The first one goes through the key classifier, which takes strings
only; the later ones are read as `String`, which takes byte strings too. -/
def keyOfMsgpack (first : Bool) : Msgpack → Option Bytes
  | .str bytes => if validUtf8 bytes then some bytes else none
  | .bin bytes => if !first && validUtf8 bytes then some bytes else none
  | _ => none

mutual

/-- The `Value` visitor: byte strings and extensions are refused. -/
def ofMsgpack : Msgpack → Option Json
  | .nil => some .null
  | .bool b => some (.bool b)
  | .int n => some (.int n)
  | .float32 bits => some (ofFloat (widenFloat bits))
  | .float64 bits => some (ofFloat bits)
  | .str bytes => if validUtf8 bytes then some (.string bytes) else none
  | .bin _ => none
  | .ext _ _ => none
  | .array items => (ofItems items).map .array
  | .map entries => (ofEntries true entries []).map .object

def ofItems : List Msgpack → Option (List Json)
  | [] => some []
  | item :: rest => do
      let x ← ofMsgpack item
      let xs ← ofItems rest
      return x :: xs

def ofEntries (first : Bool) :
    List (Msgpack × Msgpack) → List (Bytes × Json) → Option (List (Bytes × Json))
  | [], acc => some acc
  | (k, v) :: rest, acc => do
      let key ← keyOfMsgpack first k
      let value ← ofMsgpack v
      ofEntries false rest (insertKey key value acc)

end

mutual

/-- `Serialize for Value`. -/
def toMsgpack : Json → Msgpack
  | .null => .nil
  | .bool b => .bool b
  | .int n => .int n
  | .float bits => .float64 bits
  | .string bytes => .str bytes
  | .array items => .array (toItems items)
  | .object entries => .map (toEntries entries)

def toItems : List Json → List Msgpack
  | [] => []
  | item :: rest => toMsgpack item :: toItems rest

def toEntries : List (Bytes × Json) → List (Msgpack × Msgpack)
  | [] => []
  | (k, v) :: rest => (.str k, toMsgpack v) :: toEntries rest

end

end Json

/-- The decoder gives up on containers nested this deep. -/
def depthLimit : Nat := 1024

/-- `encoding::from_bytes::<Value>`. Bytes behind the first value are not looked at. -/
def valueFromBytes (bytes : Bytes) : Option Json := do
  let (value, _) ← Msgpack.read depthLimit bytes
  Json.ofMsgpack value

/-! ### Byte vectors -/

/-- `Serialize for Vec<u8>` and `&[u8]`: a sequence of numbers. -/
def bytesToMsgpack (bytes : Bytes) : Msgpack :=
  .array (bytes.map fun b => .int b.toNat)

/-- `Deserialize for u8`. -/
def byteOfMsgpack : Msgpack → Option UInt8
  | .int n => if 0 ≤ n ∧ n < 256 then some (UInt8.ofNat n.toNat) else none
  | _ => none

/-- `Deserialize for Vec<u8>`: a sequence, each element a `u8`. -/
def bytesOfMsgpack : Msgpack → Option Bytes
  | .array items => items.mapM byteOfMsgpack
  | _ => none

theorem bytesOfMsgpack_bytesToMsgpack (bytes : Bytes) :
    bytesOfMsgpack (bytesToMsgpack bytes) = some bytes := by
  simp only [bytesOfMsgpack, bytesToMsgpack, List.mapM_map]
  induction bytes with
  | nil => rfl
  | cons b rest ih =>
      have hb : byteOfMsgpack (.int b.toNat) = some b := by
        have hlt := b.toNat_lt
        simp only [byteOfMsgpack, Int.natCast_nonneg, true_and, Int.toNat_natCast,
          UInt8.ofNat_toNat]
        apply if_pos
        omega
      simp only [List.mapM_cons, Function.comp_apply, hb, ih]
      rfl

/-! ### Frames -/

structure EventHeader where
  eventId : Nat
  correlationId : Nat
  causationId : Option Nat
  timestampUs : Int
  wallMs : Nat
  clock : Nat
  dagLane : Nat
  dagDepth : Nat
  payloadSize : Nat
  kind : EventKind
  flags : Nat
  contentHash : Digest
  payloadVersion : Nat
  deriving Repr, Inhabited, DecidableEq

structure Event (P : Type) where
  header : EventHeader
  payload : P
  hashChain : Option HashChain
  deriving Repr, Inhabited, DecidableEq

structure StoredEvent (P : Type) where
  coordinate : Coordinate
  event : Event P

structure FramePayload (P : Type) where
  event : Event P
  coord : Coordinate
  receiptExtensions : Extensions
  deriving Repr, Inhabited, DecidableEq

/-- A frame as the file holds it: whatever was serialised into its payload field. -/
abbrev StoredFrame := FramePayload Msgpack

/-- `frame_encode`, for a payload type with the given serialisation. -/
def FramePayload.encode {P : Type} (serialize : P → Msgpack) (f : FramePayload P) :
    StoredFrame where
  event := ⟨f.event.header, serialize f.event.payload, f.event.hashChain⟩
  coord := f.coord
  receiptExtensions := f.receiptExtensions

/-- What the writer serialises for a frame. The markers have no hash chain. -/
def FramePayload.ofFrame (f : Frame) : FramePayload Bytes where
  event := {
    header := {
      eventId := f.eventId
      correlationId := f.correlationId
      causationId := f.causationId
      timestampUs := f.timestampUs
      wallMs := f.wallMs
      clock := f.clock
      dagLane := f.dagLane
      dagDepth := f.dagDepth
      payloadSize := f.payloadSize
      kind := f.kind
      flags := f.flags
      contentHash := f.hashChain.eventHash
      payloadVersion := f.payloadVersion }
    payload := f.payload
    hashChain := if f.kind.isBatchMarker then none else some f.hashChain }
  coord := f.coord
  receiptExtensions := f.receiptExtensions

/-- The writer's frame on disk. -/
def storedFrame (f : Frame) : StoredFrame :=
  (FramePayload.ofFrame f).encode bytesToMsgpack

def decodeFramePayloadRaw (f : StoredFrame) : Except StoreError (FramePayload Bytes) :=
  match bytesOfMsgpack f.event.payload with
  | none => .error (.serialization "invalid type: expected a sequence")
  | some bytes => .ok ⟨⟨f.event.header, bytes, f.event.hashChain⟩, f.coord, f.receiptExtensions⟩

/-- The markers have no payload to decode. -/
def decodePayloadValue (kind : EventKind) (payload : Bytes) : Except StoreError Json :=
  if kind.isBatchMarker then .ok .null
  else
    match valueFromBytes payload with
    | none => .error (.serialization "msgpack")
    | some value => .ok value

def decodeFramePayloadValue (f : StoredFrame) : Except StoreError (FramePayload Json) := do
  let payload ← decodeFramePayloadRaw f
  let decoded ← decodePayloadValue payload.event.header.kind payload.event.payload
  return ⟨⟨payload.event.header, decoded, payload.event.hashChain⟩, payload.coord,
    payload.receiptExtensions⟩

/-! ### Compaction -/

/-- The frame loop of `scan_segment`: markers are skipped, an unreadable payload ends the
scan. -/
def fullScanFrames (segmentId : Nat) : List StoredFrame → Except StoreError (List (FramePayload Json))
  | [] => .ok []
  | f :: rest =>
      match decodeFramePayloadValue f with
      | .error _ => .error (.corruptSegment segmentId "frame has unreadable payload")
      | .ok payload => do
          let entries ← fullScanFrames segmentId rest
          return if payload.event.header.kind.isBatchMarker then entries else payload :: entries

/-- All sealed segments, in order. -/
def fullScanSealed : List (Nat × List StoredFrame) → Except StoreError (List (FramePayload Json))
  | [] => .ok []
  | (segmentId, frames) :: rest => do
      let entries ← fullScanFrames segmentId frames
      let later ← fullScanSealed rest
      return entries ++ later

/-- `write_scanned_entry`: the decoded value goes back into the payload field. -/
def writeScannedEntry (entry : FramePayload Json) : StoredFrame :=
  entry.encode Json.toMsgpack

def scannedEntryAsStoredEvent (entry : FramePayload Json) : StoredEvent Json :=
  ⟨entry.coord, entry.event⟩

def tombstoned (entry : FramePayload Json) : FramePayload Json :=
  { entry with
    event := { entry.event with header := { entry.event.header with kind := .tombstone } } }

/-- The two strategies that decode and re-encode every event. -/
inductive RewriteStrategy where
  | retention (predicate : StoredEvent Json → Bool)
  | tombstone (predicate : StoredEvent Json → Bool)

/-- What a scanned event becomes, if it is kept. -/
def RewriteStrategy.rewrite : RewriteStrategy → FramePayload Json → Option (FramePayload Json)
  | .retention predicate, entry =>
      if predicate (scannedEntryAsStoredEvent entry) then some entry else none
  | .tombstone predicate, entry =>
      some (if predicate (scannedEntryAsStoredEvent entry) then entry else tombstoned entry)

/-- The frames of the merged segment (`materialize_compacted_segment`). -/
def compactedFrames (strategy : RewriteStrategy) (sealed : List (Nat × List StoredFrame)) :
    Except StoreError (List StoredFrame) := do
  let entries ← fullScanSealed sealed
  return (entries.filterMap strategy.rewrite).map writeScannedEntry

end Batpak.Store
