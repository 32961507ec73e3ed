/-
Module: Batpak.Store.Types
Purpose: The values that flow through the event store, and the typed errors the writer, the
  recovery scan and the lifecycle return.
Trusted boundary: hashing, canonical encodings and the signing key are parameters (Runtime).
Main exports: EventKind, HlcPoint
-/
import Mathlib

namespace Batpak.Store

/-- Raw bytes of a payload or of an encoded frame. -/
abbrev Bytes := List UInt8

/-- A 32-byte content hash; the zero digest marks the genesis of a chain. -/
abbrev Digest := Nat

/-- Largest value of the `u32` per-entity clock. -/
def u32Max : Nat := 4294967295

/-- Entity and scope of an event. -/
structure Coordinate where
  entity : String
  scope : String
  deriving Repr, Inhabited, DecidableEq

/-- Event kind: the raw 16-bit type discriminant. -/
structure EventKind where
  raw : Nat
  deriving Repr, Inhabited, DecidableEq

namespace EventKind

def systemBatchBegin : EventKind := ⟨0x0006⟩
def systemBatchCommit : EventKind := ⟨0x0007⟩
def systemOpenCompleted : EventKind := ⟨0x0008⟩
def systemCloseCompleted : EventKind := ⟨0x0009⟩
def tombstone : EventKind := ⟨0x0FFE⟩
def data : EventKind := ⟨0x1000⟩

/-- The two batch envelope markers. The public write surface rejects every reserved
kind and the internal emitters never build a marker through an append, so an
appended event is never one of these. -/
def isBatchMarker (k : EventKind) : Bool :=
  k = systemBatchBegin || k = systemBatchCommit

end EventKind

/-- Hybrid logical clock point used by the frontier watermarks. -/
structure HlcPoint where
  wallMs : Nat
  globalSequence : Nat
  deriving Repr, Inhabited, DecidableEq

namespace HlcPoint

def origin : HlcPoint := ⟨0, 0⟩

def coversSequence (p target : HlcPoint) : Bool :=
  target.globalSequence ≤ p.globalSequence

/-- `Ord::max` on points: wall clock first, then sequence. -/
def max (p q : HlcPoint) : HlcPoint :=
  if q.wallMs < p.wallMs ∨ (q.wallMs = p.wallMs ∧ q.globalSequence < p.globalSequence) then p
  else q

/-- `Ord::lt` on points. -/
def lt (p q : HlcPoint) : Bool :=
  p.wallMs < q.wallMs || (p.wallMs = q.wallMs && p.globalSequence < q.globalSequence)

def maxBySequence (p q : HlcPoint) : HlcPoint :=
  if p.globalSequence < q.globalSequence then q
  else if q.globalSequence < p.globalSequence then p
  else p.max q

@[simp] theorem maxBySequence_globalSequence (p q : HlcPoint) :
    (p.maxBySequence q).globalSequence = Nat.max p.globalSequence q.globalSequence := by
  unfold maxBySequence
  split
  · simp only [Nat.max_def]; split <;> omega
  · split
    · simp only [Nat.max_def]; split <;> omega
    · unfold max
      split <;> simp only [Nat.max_def] <;> split <;> omega

end HlcPoint

/-- Where an event frame lives on disk. -/
structure DiskPos where
  segmentId : Nat
  offset : Nat
  length : Nat
  deriving Repr, Inhabited, DecidableEq

structure HashChain where
  prevHash : Digest
  eventHash : Digest
  deriving Repr, Inhabited, DecidableEq

/-- Opaque receipt extensions, in key order. -/
abbrev Extensions := List (String × Bytes)

/-- Where a frame came from. This is specification-only data: it is stamped when a
frame is written, carried along by every copy of the frame, and never read by the
modelled code. `sequence` is the global sequence the writer assigned (the one the
receipt reports) and `fence` identifies the visibility fence the append ran under. -/
structure Provenance where
  sequence : Nat
  fence : Option Nat
  deriving Repr, Inhabited, DecidableEq

/-- The decoded payload of one frame: event header, payload bytes, hash chain,
coordinate and receipt extensions. `clock` is the position's per-entity sequence and
`payloadSize` doubles as the item count of a batch BEGIN marker. -/
structure Frame where
  eventId : Nat
  correlationId : Nat
  causationId : Option Nat
  timestampUs : Int
  wallMs : Nat
  clock : Nat
  dagLane : Nat
  dagDepth : Nat
  payloadSize : Nat
  kind : EventKind
  flags : Nat
  payloadVersion : Nat
  payload : Bytes
  hashChain : HashChain
  coord : Coordinate
  receiptExtensions : Extensions
  provenance : Option Provenance
  deriving Repr, Inhabited, DecidableEq

/-- Everything the in-memory index keeps about one event. -/
structure IndexEntry where
  eventId : Nat
  correlationId : Nat
  causationId : Option Nat
  coord : Coordinate
  kind : EventKind
  wallMs : Nat
  clock : Nat
  dagLane : Nat
  dagDepth : Nat
  hashChain : HashChain
  diskPos : DiskPos
  globalSequence : Nat
  receiptExtensions : Extensions
  provenance : Option Provenance
  deriving Repr, Inhabited, DecidableEq

/-- Proof handed to the producer once its event is committed. -/
structure AppendReceipt where
  eventId : Nat
  globalSequence : Nat
  diskPos : DiskPos
  contentHash : Digest
  keyId : Nat
  signature : Option Nat
  extensions : Extensions
  deriving Repr, Inhabited, DecidableEq

/-- Typed errors, with the fields the modelled operations fill in. -/
inductive StoreError where
  | io (what : String)
  | serialization (message : String)
  | configuration (message : String)
  | invalidClock (timestampUs : Int) (reason : String)
  | sequenceMismatch (entity : String) (expected actual : Nat)
  | entityClockOverflow (entity : String)
  | sequenceGateViolation (operation : String) (requested allocated visible : Nat)
  | visibilityFenceActive
  | visibilityFenceNotActive
  | visibilityFenceCancelled
  | idempotencyPartialBatch (reason : String)
  | idempotencyOverflowFailClosed (len maxKeys : Nat)
  | internerExhausted
  | invalidCausation (priorIdx itemIndex : Nat) (reason : String)
  | batchFailed (itemIndex : Nat) (source : StoreError)
  | batchSyncFailed (itemCount : Nat) (source : StoreError)
  | corruptFrame (segmentId offset : Nat) (reason : String)
  | corruptSegment (segmentId : Nat) (detail : String)
  | segmentTooManyEntries (segmentId count : Nat)
  | dataDirMalformed (reason : String)
  | invariantViolation (kind : String)
  | notFound (eventId : Nat)
  | batchItemTooLarge (index size limit : Nat)
  | reservedKind (index : Option Nat) (kind : Nat)
  | coordinate (reason : String)
  deriving Repr, Inhabited, DecidableEq

/-- The pieces of the writer's environment that are not part of the store: the
content hash, the canonical encodings and the signing key. `coverBytes` is the signed
digest and fails when a canonical encoding does. -/
structure Runtime where
  computeHash : Bytes → Digest
  frameLength : Frame → Nat
  footerRowLength : Nat
  extensionsLength : Extensions → Nat
  coverBytes : Nat → Nat → Coordinate → EventKind → Digest → Digest → Extensions → Option Digest
  signer : Option (Nat × (Digest → Nat))
  downgradeBody : Option Bytes

/-- Insert into the key-ordered extension map, replacing an equal key. -/
def insertExtension (key : String) (value : Bytes) : Extensions → Extensions
  | [] => [(key, value)]
  | (k, v) :: rest =>
      if key < k then (key, value) :: (k, v) :: rest
      else if key = k then (key, value) :: rest
      else (k, v) :: insertExtension key value rest

/-- Without a signature cover the receipt is marked as downgraded in its extensions. -/
def downgradeReceiptSigning (rt : Runtime) (receipt : AppendReceipt) : AppendReceipt :=
  { receipt with
    extensions :=
      match rt.downgradeBody with
      | some body => insertExtension "batpak.signing.downgrade" body receipt.extensions
      | none => receipt.extensions
    keyId := 0
    signature := none }

def signAppendReceipt (rt : Runtime) (receipt : AppendReceipt) (coord : Coordinate)
    (kind : EventKind) (prevHash : Digest) : AppendReceipt :=
  match rt.coverBytes receipt.eventId receipt.globalSequence coord kind prevHash
      receipt.contentHash receipt.extensions with
  | none => downgradeReceiptSigning rt receipt
  | some cover =>
      match rt.signer with
      | some (keyId, sign) => { receipt with keyId := keyId, signature := some (sign cover) }
      | none => { receipt with keyId := 0, signature := none }

/-- Signing changes the key id, the signature and, when downgrading, the extensions. -/
theorem signAppendReceipt_keeps (rt : Runtime) (r : AppendReceipt) (c : Coordinate)
    (k : EventKind) (h : Digest) :
    (signAppendReceipt rt r c k h).eventId = r.eventId ∧
      (signAppendReceipt rt r c k h).globalSequence = r.globalSequence ∧
      (signAppendReceipt rt r c k h).diskPos = r.diskPos ∧
      (signAppendReceipt rt r c k h).contentHash = r.contentHash := by
  unfold signAppendReceipt downgradeReceiptSigning
  split
  · exact ⟨rfl, rfl, rfl, rfl⟩
  · split <;> exact ⟨rfl, rfl, rfl, rfl⟩

/-- Signing keeps the extensions, or adds the note of a downgraded receipt. -/
theorem signAppendReceipt_extensions (rt : Runtime) (r : AppendReceipt) (c : Coordinate)
    (k : EventKind) (h : Digest) :
    (signAppendReceipt rt r c k h).extensions = r.extensions ∨
      ∃ body, rt.downgradeBody = some body ∧ (signAppendReceipt rt r c k h).extensions =
        insertExtension "batpak.signing.downgrade" body r.extensions := by
  unfold signAppendReceipt
  split
  · unfold downgradeReceiptSigning
    cases hbody : rt.downgradeBody with
    | none => exact Or.inl rfl
    | some body => exact Or.inr ⟨body, rfl, rfl⟩
  · split
    · exact Or.inl rfl
    · exact Or.inl rfl

def wallMsFromTimestampUs (timestampUs : Int) : Except StoreError Nat :=
  if timestampUs < 0 then
    .error (.invalidClock timestampUs "timestamp_us must be >= 0 microseconds since Unix epoch")
  else
    .ok (timestampUs / 1000).toNat

end Batpak.Store
