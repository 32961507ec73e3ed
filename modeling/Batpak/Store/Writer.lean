/-
Module: Batpak.Store.Writer
Purpose: The single writer's state and its commit protocol. Every method keeps the state it
  reached when a step fails.
Trusted boundary: hashing, signing, frame lengths (Runtime); which platform calls fail
  (Faults); wall-clock readings and generated event ids (request fields)
Main exports: WriterCore, WriterM
-/
import Batpak.Store.Index
import Batpak.Store.Segment
import Batpak.Store.Watermark
import Batpak.Util.Outcome

namespace Batpak.Store

open Batpak.Util

/-! ### Requests, configuration and fault points -/

structure StoreConfig where
  segmentMaxBytes : Nat
  headerBytes : Nat
  batchMaxSize : Nat
  batchMaxBytes : Nat
  groupCommitDrainBudget : Nat
  syncEveryNEvents : Nat
  shutdownDrainLimit : Nat
  deriving Repr, Inhabited, DecidableEq

/-- Which fallible platform calls of one writer command fail. Frames are numbered in
the order the command writes them: a batch writes BEGIN, its items, then COMMIT. -/
structure Faults where
  encode : Nat → Bool
  write : Nat → Option Nat
  rotateCreate : Bool
  rotateSync : Bool
  footer : Bool
  sync : Bool
  intern : Bool
  sidxRecord : Nat → Bool
  persistRanges : Bool
  periodicSync : Bool

def Faults.none : Faults where
  encode := fun _ => false
  write := fun _ => Option.none
  rotateCreate := false
  rotateSync := false
  footer := false
  sync := false
  intern := false
  sidxRecord := fun _ => false
  persistRanges := false
  periodicSync := false

/-- A single append as it reaches the writer. The submission path rejects batch
markers and uses the idempotency key as the event id. -/
structure AppendRequest where
  coord : Coordinate
  eventId : Nat
  kind : EventKind
  payload : Bytes
  timestampUs : Int
  correlationId : Nat
  causationId : Option Nat
  expectedSequence : Option Nat
  idempotencyKey : Option Nat
  dagLane : Nat
  dagDepth : Nat
  dagBranchRoot : Bool
  flags : Nat
  payloadVersion : Nat
  extensions : Extensions
  kind_appendable : kind.isBatchMarker = false
  keyed_id : idempotencyKey.all (· == eventId) = true

inductive CausationRef where
  | none
  | absolute (id : Nat)
  | priorItem (index : Nat)
  deriving Repr, Inhabited, DecidableEq

/-- One item of a batch; `generatedId` is the id drawn when the item is not keyed. -/
structure BatchAppendItem where
  coord : Coordinate
  kind : EventKind
  payload : Bytes
  generatedId : Nat
  correlationId : Option Nat
  causationId : Option Nat
  causation : CausationRef
  expectedSequence : Option Nat
  idempotencyKey : Option Nat
  dagLane : Nat
  dagDepth : Nat
  dagBranchRoot : Bool
  flags : Nat
  extensions : Extensions
  kind_appendable : kind.isBatchMarker = false

def BatchAppendItem.eventId (item : BatchAppendItem) : Nat :=
  item.idempotencyKey.getD item.generatedId

/-- Encoded size of receipt extensions; an empty map costs nothing. -/
def encodedReceiptExtensionsLen (rt : Runtime) (extensions : Extensions) : Nat :=
  if extensions.isEmpty then 0 else rt.extensionsLength extensions

/-! ### Writer state -/

structure Notification where
  eventId : Nat
  lane : Nat
  sequence : Nat
  wallMs : Nat
  deriving Repr, Inhabited, DecidableEq

/-- A receipt held back until the fence commits. -/
inductive PendingFenceResponse where
  | single (respond : Nat) (receipt : AppendReceipt)
  | batch (respond : Nat) (receipts : List AppendReceipt)
  deriving Repr, Inhabited, DecidableEq

/-- `identity` is specification-only: it tells fences of different runs apart, which
the token does not (the token counter restarts with the gate). -/
structure FenceLedger where
  token : Nat
  publishUpTo : Option Nat
  frontierPoint : Option HlcPoint
  notifications : List Notification
  responses : List PendingFenceResponse
  identity : Nat
  deriving Repr, Inhabited, DecidableEq

/-- What was sent on a response channel. -/
inductive Reply where
  | unit (result : Except StoreError Unit)
  | receipt (result : Except StoreError AppendReceipt)
  | receipts (result : Except StoreError (List AppendReceipt))

/-- The writer's mutable state together with the segment files of the data directory
and the cancelled-ranges side file. `replies` records what was sent on the response
channels, newest first; `fenceCount` numbers the fences of the run. -/
structure WriterCore where
  index : StoreIndex
  active : Segment
  sealed : List Segment
  segmentId : Nat
  watermark : WatermarkState
  sidxCollector : List SidxEntry
  fenceLedger : Option FenceLedger
  hiddenRanges : Option CancelledVisibilityRanges
  replies : List (Nat × Reply)
  fenceCount : Nat
  committedFences : List Nat

abbrev WriterM := EStateM StoreError WriterCore

namespace WriterCore

/-- Every segment file, oldest first. -/
def segments (s : WriterCore) : List Segment :=
  s.sealed ++ [s.active]

end WriterCore

/-! ### Small steps shared by the append paths -/

def checkedNextClock (latestClock : Option Nat) (entity : String) : Except StoreError Nat :=
  match latestClock with
  | some clock => if clock < u32Max then .ok (clock + 1) else .error (.entityClockOverflow entity)
  | none => .ok 0

/-- Run a pure check that may fail. -/
def liftExcept {α : Type} (r : Except StoreError α) : WriterM α :=
  match r with
  | .ok a => pure a
  | .error e => throw e

/-- Fail unless the condition holds. -/
def ensure (condition : Bool) (e : StoreError) : Except StoreError Unit :=
  if condition then .ok () else .error e

/-- `segment::frame_encode`: serialisation may fail, and the length must fit `u32`. -/
def frameEncode (rt : Runtime) (fails : Bool) (f : Frame) : Except StoreError Nat :=
  if fails then .error (.serialization "msgpack")
  else if u32Max < rt.frameLength f - 8 then .error (.serialization "frame exceeds 4GB")
  else .ok (rt.frameLength f)

/-- Write the `i`-th frame of the command to the active segment. -/
def writeFrame (flt : Faults) (i : Nat) (f : Frame) (length : Nat) : WriterM Nat := fun s =>
  match s.active.writeFrame f length (flt.write i) with
  | (.ok offset, seg) => .ok offset { s with active := seg }
  | (.error e, seg) => .error e { s with active := seg }

def syncActiveSegment (flt : Faults) : WriterM Unit := fun s =>
  if flt.sync then .error (.io "sync") s
  else .ok () { s with
    active := s.active.sync
    watermark := s.watermark.advanceDurableToAccepted }

/-- Seal the active segment when it is full: create the successor, sync the old file
(which advances the durable point to the accepted one), write its SIDX footer on a
best-effort basis, and swap. -/
def maybeRotateSegment (cfg : StoreConfig) (flt : Faults) : WriterM Bool := fun s =>
  if s.active.needsRotation cfg.segmentMaxBytes then
    if flt.rotateCreate then .error (.io "create") s
    else if flt.rotateSync then .error (.io "sync") s
    else
      let old := s.active.sync
      let old := if flt.footer then old else old.writeSidxFooter s.sidxCollector
      .ok true { s with
        active := Segment.create (s.segmentId + 1) cfg.headerBytes
        sealed := s.sealed ++ [old]
        segmentId := s.segmentId + 1
        watermark := s.watermark.advanceDurableToAccepted
        sidxCollector := [] }
  else .ok false s

/-- An event with everything decided but its place on disk, with its signed receipt. -/
structure StagedCommittedEvent where
  frame : Frame
  causationId : Option Nat
  globalSequence : Nat
  receipt : AppendReceipt
  deriving Repr, Inhabited, DecidableEq

namespace StagedCommittedEvent

def point (st : StagedCommittedEvent) : HlcPoint :=
  ⟨st.frame.wallMs, st.globalSequence⟩

def notification (st : StagedCommittedEvent) : Notification :=
  ⟨st.frame.eventId, st.frame.dagLane, st.globalSequence, st.frame.wallMs⟩

def indexEntry (st : StagedCommittedEvent) (pos : DiskPos) : IndexEntry where
  eventId := st.frame.eventId
  correlationId := st.frame.correlationId
  causationId := st.causationId
  coord := st.frame.coord
  kind := st.frame.kind
  wallMs := st.frame.wallMs
  clock := st.frame.clock
  dagLane := st.frame.dagLane
  dagDepth := st.frame.dagDepth
  hashChain := st.frame.hashChain
  diskPos := pos
  globalSequence := st.globalSequence
  receiptExtensions := st.frame.receiptExtensions
  provenance := st.frame.provenance

/-- A footer row has no room for a zero causation id or for receipt extensions. -/
def sidxEntry (st : StagedCommittedEvent) (pos : DiskPos) : SidxEntry where
  eventId := st.frame.eventId
  coord := st.frame.coord
  kind := st.frame.kind
  wallMs := st.frame.wallMs
  clock := st.frame.clock
  dagLane := st.frame.dagLane
  dagDepth := st.frame.dagDepth
  hashChain := st.frame.hashChain
  frameOffset := pos.offset
  frameLength := pos.length
  globalSequence := st.globalSequence
  correlationId := st.frame.correlationId
  causationId := st.causationId.filter (· ≠ 0)
  provenance := st.frame.provenance

end StagedCommittedEvent

/-- The receipt is signed before the frame has a place on disk; the extensions the
signing left in it are the ones the frame stores. -/
def signedReceipt (rt : Runtime) (segmentId eventId sequence : Nat) (contentHash : Digest)
    (extensions : Extensions) (coord : Coordinate) (kind : EventKind) (prevHash : Digest) :
    AppendReceipt :=
  signAppendReceipt rt ⟨eventId, sequence, ⟨segmentId, 0, 0⟩, contentHash, 0, none, extensions⟩
    coord kind prevHash

/-- Receipt rebuilt from the durable idempotency map. -/
def receiptOfIdemp (rt : Runtime) (d : IdempEntry) : AppendReceipt :=
  signAppendReceipt rt
    ⟨d.eventId, d.globalSequence, d.diskPos, d.contentHash, 0, none, d.receiptExtensions⟩
    d.coord d.kind d.prevHash

/-- Receipt rebuilt from a live index entry. -/
def receiptOfEntry (rt : Runtime) (e : IndexEntry) : AppendReceipt :=
  signAppendReceipt rt
    ⟨e.eventId, e.globalSequence, e.diskPos, e.hashChain.eventHash, 0, none, e.receiptExtensions⟩
    e.coord e.kind e.hashChain.prevHash

/-! ### Lane publication -/

structure LanePublishPoint where
  publishUpTo : Nat
  frontierPoint : HlcPoint
  deriving Repr, Inhabited, DecidableEq

/-- Keep the highest publish point of a lane, in lane order. -/
def upsertLanePoint (lane : Nat) (p : LanePublishPoint) :
    List (Nat × LanePublishPoint) → List (Nat × LanePublishPoint)
  | [] => [(lane, p)]
  | (l, q) :: rest =>
      if lane < l then (lane, p) :: (l, q) :: rest
      else if lane = l then (l, if q.publishUpTo < p.publishUpTo then p else q) :: rest
      else (l, q) :: upsertLanePoint lane p rest

def lanePublishPointsFromNotifications (notifications : List Notification) :
    List (Nat × LanePublishPoint) :=
  notifications.foldl
    (fun points n => upsertLanePoint n.lane ⟨n.sequence + 1, ⟨n.wallMs, n.sequence⟩⟩ points) []

/-- The lane bounds a publish installs. -/
def laneBounds (notifications : List Notification) : List (Nat × Nat) :=
  (lanePublishPointsFromNotifications notifications).map fun p => (p.1, p.2.publishUpTo)

def advanceVisibleOnLanes (w : WatermarkState) (notifications : List Notification) :
    WatermarkState :=
  (lanePublishPointsFromNotifications notifications).foldl
    (fun w p => w.advanceVisibleAndEmittedOnLane p.1 p.2.frontierPoint) w

def publishThenBroadcastUnfenced (publishUpTo : Nat) (frontierPoint : HlcPoint)
    (notifications : List Notification) : WriterM Unit := fun s =>
  match s.index.gate.publishOnLanes publishUpTo (laneBounds notifications)
      "publish_then_broadcast_unfenced" with
  | .error e => .error e s
  | .ok gate =>
      .ok () { s with
        index := { s.index with gate := gate }
        watermark :=
          advanceVisibleOnLanes (s.watermark.advanceVisibleAndEmitted frontierPoint) notifications }

/-- Under a fence nothing is published: the ledger and the gate's hull grow instead. -/
def recordFenceProgress (first publishUpTo : Nat) (frontierPoint : HlcPoint)
    (notifications : List Notification) : WriterM Unit := fun s =>
  match s.fenceLedger with
  | none => .error .visibilityFenceNotActive s
  | some fence =>
      let fence := { fence with
        publishUpTo := some (max (fence.publishUpTo.getD 0) publishUpTo)
        frontierPoint := some ((fence.frontierPoint.getD .origin).max frontierPoint) }
      match s.index.gate.noteFenceProgress fence.token first publishUpTo with
      | .error e => .error e { s with fenceLedger := some fence }
      | .ok gate =>
          .ok () { s with
            index := { s.index with gate := gate }
            fenceLedger := some { fence with
              notifications := fence.notifications ++ notifications } }

/-- Publication of committed events: held back under a fence, immediate otherwise. -/
def publishCommitted (fenced : Bool) (first publishUpTo : Nat) (frontierPoint : HlcPoint)
    (notifications : List Notification) : WriterM Unit :=
  if fenced then recordFenceProgress first publishUpTo frontierPoint notifications
  else publishThenBroadcastUnfenced publishUpTo frontierPoint notifications

/-! ### The single append -/

/-- The compare-and-swap guard: the actual clock of an empty stream reads as zero. -/
def checkExpectedSequence (req : AppendRequest) (latest : Option IndexEntry) :
    Except StoreError Unit :=
  match req.expectedSequence with
  | none => .ok ()
  | some expected =>
      let actual := (latest.map (·.clock)).getD 0
      if actual = expected then .ok ()
      else .error (.sequenceMismatch req.coord.entity expected actual)

/-- Idempotency short circuit: durable map first, then the visible point lookup, else
admit the key. -/
def tryIdempotencyReplay (rt : Runtime) (key : Nat) : WriterM (Option AppendReceipt) := fun s =>
  match s.index.idemp.get key with
  | some durable => .ok (some (receiptOfIdemp rt durable)) s
  | none =>
      match s.index.getById key with
      | some entry => .ok (some (receiptOfEntry rt entry)) s
      | none =>
          match s.index.idemp.admitNewKey key s.index.globalSequence with
          | (.ok (), idemp) => .ok none { s with index := { s.index with idemp := idemp } }
          | (.error e, idemp) => .error e { s with index := { s.index with idemp := idemp } }

/-- Everything about the event that is decided before a byte is written. -/
def stageAppend (rt : Runtime) (req : AppendRequest) (latest : Option IndexEntry)
    (segmentId globalSeq : Nat) (fence : Option Nat) :
    Except StoreError StagedCommittedEvent := do
  let clock ← checkedNextClock (latest.map (·.clock)) req.coord.entity
  let rawMs ← wallMsFromTimestampUs req.timestampUs
  let prevHash := (latest.map (·.hashChain.eventHash)).getD 0
  let eventHash := rt.computeHash req.payload
  let receipt := signedReceipt rt segmentId req.eventId globalSeq eventHash req.extensions
    req.coord req.kind prevHash
  return {
    frame := {
      eventId := req.eventId
      correlationId := req.correlationId
      causationId := req.causationId.filter (· ≠ 0)
      timestampUs := req.timestampUs
      wallMs := max rawMs ((latest.map (·.wallMs)).getD 0)
      clock := clock
      dagLane := req.dagLane
      dagDepth := if req.dagBranchRoot then min (req.dagDepth + 1) u32Max else req.dagDepth
      payloadSize := req.payload.length
      kind := req.kind
      flags := req.flags
      payloadVersion := req.payloadVersion
      payload := req.payload
      hashChain := ⟨prevHash, eventHash⟩
      coord := req.coord
      receiptExtensions := receipt.extensions
      provenance := some ⟨globalSeq, fence⟩ }
    causationId := req.causationId
    globalSequence := globalSeq
    receipt := receipt }

/-- Identity of the fence a command runs under. -/
def fenceIdentity (s : WriterCore) (fenced : Bool) : Option Nat :=
  if fenced then s.fenceLedger.map (·.identity) else none

/-- Stage the event and advance the accepted watermark over it. The sequence is read
from the allocator, which only moves when the entry is inserted. -/
def acceptAppend (rt : Runtime) (req : AppendRequest) (latest : Option IndexEntry)
    (fenced : Bool) : WriterM StagedCommittedEvent := fun s =>
  match stageAppend rt req latest s.segmentId s.index.globalSequence
      (fenceIdentity s fenced) with
  | .error e => .error e s
  | .ok st =>
      .ok st { s with
        watermark := s.watermark.advanceAcceptedOnLane st.frame.dagLane st.point }

/-- Write the staged frame and advance the written watermark. -/
def writeStaged (flt : Faults) (i : Nat) (st : StagedCommittedEvent) (length : Nat) :
    WriterM Nat := do
  let offset ← writeFrame flt i st.frame length
  modify fun s => { s with
    watermark := s.watermark.advanceWrittenOnLane st.frame.dagLane st.point }
  return offset

/-- Interning, the SIDX row, the idempotency record of a keyed event, the index entry. -/
def commitStaged (flt : Faults) (keyed : Bool) (st : StagedCommittedEvent) (pos : DiskPos) :
    WriterM Unit := fun s =>
  if flt.intern then .error .internerExhausted s
  else if flt.sidxRecord 0 then .error .internerExhausted s
  else
    let entry := st.indexEntry pos
    let idemp :=
      if keyed then s.index.idemp.record (.fromIndexEntry entry st.globalSequence)
      else s.index.idemp
    .ok () { s with
      sidxCollector := s.sidxCollector ++ [st.sidxEntry pos]
      index := ({ s.index with idemp := idemp } : StoreIndex).insert entry }

/-- The part of the commit protocol that touches only the disk and the watermarks: accept,
encode, rotate, write. Returns the staged event and where its frame went. -/
def prepareAppend (cfg : StoreConfig) (rt : Runtime) (flt : Faults) (req : AppendRequest)
    (latest : Option IndexEntry) (fenced : Bool) :
    WriterM (StagedCommittedEvent × DiskPos) := do
  let st ← acceptAppend rt req latest fenced
  let length ← liftExcept (frameEncode rt (flt.encode 0) st.frame)
  let _ ← maybeRotateSegment cfg flt
  let offset ← writeStaged flt 0 st length
  liftExcept (ensure (length ≤ u32Max)
    (.serialization "encoded frame length exceeds u32::MAX"))
  let s ← get
  return (st, ⟨s.segmentId, offset, length⟩)

/-- From acceptance to publication. -/
def commitAppend (cfg : StoreConfig) (rt : Runtime) (flt : Faults) (req : AppendRequest)
    (latest : Option IndexEntry) (fenced : Bool) : WriterM AppendReceipt := do
  let (st, pos) ← prepareAppend cfg rt flt req latest fenced
  commitStaged flt req.idempotencyKey.isSome st pos
  publishCommitted fenced st.globalSequence (st.globalSequence + 1) st.point [st.notification]
  return { st.receipt with diskPos := pos }

/-- `handle_append`: the guards, then the commit protocol. -/
def handleAppend (cfg : StoreConfig) (rt : Runtime) (flt : Faults) (req : AppendRequest)
    (fenced : Bool) : WriterM AppendReceipt := do
  let s ← get
  let latest := s.index.getLatestCommitted req.coord.entity req.dagLane
  liftExcept (checkExpectedSequence req latest)
  match req.idempotencyKey with
  | none => commitAppend cfg rt flt req latest fenced
  | some key =>
      match ← tryIdempotencyReplay rt key with
      | some receipt => return receipt
      | none => commitAppend cfg rt flt req latest fenced

end Batpak.Store
