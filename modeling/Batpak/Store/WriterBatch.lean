/-
Module: Batpak.Store.WriterBatch
Purpose: The batch append: validation, idempotency preflight, sequence reservation,
  staging of every item, the BEGIN / items / COMMIT envelope, the sync and the commit.
Trusted boundary: as for the single append
Main exports: validateBatch, preflightBatchIdempotency
-/
import Batpak.Store.Writer

namespace Batpak.Store

open Batpak.Util

/-! ### Guards -/

/-- Size, total bytes, and no compare-and-swap inside a batch. -/
def validateBatch (cfg : StoreConfig) (rt : Runtime) (items : List BatchAppendItem) :
    Except StoreError Unit :=
  let totalBytes :=
    (items.map fun i => i.payload.length + encodedReceiptExtensionsLen rt i.extensions).sum
  if cfg.batchMaxSize < items.length then
    .error (.batchFailed 0 (.configuration
      s!"batch size {items.length} exceeds max {cfg.batchMaxSize}"))
  else if cfg.batchMaxBytes < totalBytes then
    .error (.batchFailed 0 (.configuration
      s!"batch bytes {totalBytes} exceeds max {cfg.batchMaxBytes}"))
  else
    match items.findIdx? fun i => i.expectedSequence.isSome with
    | some idx => .error (.batchFailed idx (.configuration "CAS not supported in batch append (v1)"))
    | none => .ok ()

/-- The receipt a keyed item already has, from the durable map or the visible index. -/
def cachedReceipt (rt : Runtime) (ix : StoreIndex) (item : BatchAppendItem) :
    Option AppendReceipt :=
  item.idempotencyKey.bind fun key =>
    match ix.idemp.get key with
    | some durable => some (receiptOfIdemp rt durable)
    | none => (ix.getById key).map (receiptOfEntry rt)

/-- All items cached is a replay, none is a new batch, anything between is an error. -/
def preflightBatchIdempotency (rt : Runtime) (ix : StoreIndex) (items : List BatchAppendItem) :
    Except StoreError (Option (List AppendReceipt)) :=
  let cached := items.filterMap (cachedReceipt rt ix)
  if items.all fun i => i.idempotencyKey.isNone then .ok none
  else if cached.length = items.length then .ok (some cached)
  else if 0 < cached.length then
    .error (.idempotencyPartialBatch "partial idempotency-key replay")
  else .ok none

/-! ### Staging -/

/-- Running chain state of one entity lane inside the batch. -/
structure BatchEntityState where
  prevHash : Digest
  nextClock : Nat
  lastWallMs : Nat
  deriving Repr, Inhabited, DecidableEq

abbrev BatchEntityStates := List ((String × Nat) × BatchEntityState)

def resolveCausation (item : BatchAppendItem) (idx : Nat)
    (computed : List StagedCommittedEvent) : Except StoreError (Option Nat) :=
  match item.causation with
  | .none => .ok item.causationId
  | .absolute id => .ok (if id = 0 then none else some id)
  | .priorItem prior =>
      if idx ≤ prior then
        .error (.invalidCausation prior idx "PriorItem causation must reference earlier batch item")
      else .ok (computed[prior]?.map fun st => st.frame.eventId)

/-- The lane state an item continues: the batch's own, else the committed chain head. -/
def entityState (ix : StoreIndex) (states : BatchEntityStates) (item : BatchAppendItem) :
    Except StoreError BatchEntityState :=
  match states.lookup (item.coord.entity, item.dagLane) with
  | some st => .ok st
  | none => do
      let latest := ix.getLatestCommitted item.coord.entity item.dagLane
      let nextClock ← checkedNextClock (latest.map (·.clock)) item.coord.entity
      return ⟨(latest.map (·.hashChain.eventHash)).getD 0, nextClock,
        (latest.map (·.wallMs)).getD 0⟩

/-- Clock reading, reserved sequences and active segment shared by a batch's items. -/
structure BatchContext where
  nowUs : Int
  nowMs : Nat
  firstSeq : Nat
  segmentId : Nat
  fence : Option Nat
  deriving Repr, Inhabited, DecidableEq

/-- Stage one item on the given lane state. The frame is built through
`borrowed_frame_event`, whose header constructor leaves the flags and the payload version
at zero. -/
def stageItem (rt : Runtime) (ctx : BatchContext) (idx : Nat) (item : BatchAppendItem)
    (state : BatchEntityState) (causation : Option Nat) : StagedCommittedEvent :=
  let eventHash := rt.computeHash item.payload
  let globalSeq := ctx.firstSeq + idx
  let receipt := signedReceipt rt ctx.segmentId item.eventId globalSeq eventHash item.extensions
    item.coord item.kind state.prevHash
  { frame := {
      eventId := item.eventId
      correlationId := item.correlationId.getD item.eventId
      causationId := causation
      timestampUs := ctx.nowUs
      wallMs := max ctx.nowMs state.lastWallMs
      clock := state.nextClock
      dagLane := item.dagLane
      dagDepth := if item.dagBranchRoot then min (item.dagDepth + 1) u32Max else item.dagDepth
      payloadSize := item.payload.length
      kind := item.kind
      flags := 0
      payloadVersion := 0
      payload := item.payload
      hashChain := ⟨state.prevHash, eventHash⟩
      coord := item.coord
      receiptExtensions := receipt.extensions
      provenance := some ⟨globalSeq, ctx.fence⟩ }
    causationId := causation
    globalSequence := globalSeq
    receipt := receipt }

/-- Stage the items in order. Each staged item advances the accepted watermark; the
lane's next clock is computed eagerly, so an item on the last clock value fails. -/
def precomputeBatchItems (rt : Runtime) (ctx : BatchContext) :
    List BatchAppendItem → List StagedCommittedEvent → BatchEntityStates →
      WriterM (List StagedCommittedEvent)
  | [], computed, _ => pure computed
  | item :: rest, computed, states => do
      let s ← get
      let idx := computed.length
      let state ← liftExcept (entityState s.index states item)
      let causation ← liftExcept
        (match resolveCausation item idx computed with
          | .ok c => .ok c
          | .error e => .error (.batchFailed idx e))
      let st := stageItem rt ctx idx item state causation
      let nextClock ← liftExcept (checkedNextClock (some state.nextClock) item.coord.entity)
      modify fun s => { s with
        watermark := s.watermark.advanceAcceptedOnLane item.dagLane st.point }
      precomputeBatchItems rt ctx rest (computed ++ [st])
        (((item.coord.entity, item.dagLane),
          ⟨st.frame.hashChain.eventHash, nextClock, st.frame.wallMs⟩) :: states)

/-! ### The envelope -/

/-- BEGIN carries the item count in its payload size; both markers share the batch id. -/
def batchMarkerFrame (batchId : Nat) (kind : EventKind) (payloadSize : Nat) (nowUs : Int)
    (nowMs : Nat) : Frame where
  eventId := batchId
  correlationId := batchId
  causationId := none
  timestampUs := nowUs
  wallMs := nowMs
  clock := 0
  dagLane := 0
  dagDepth := 0
  payloadSize := payloadSize
  kind := kind
  flags := 0
  payloadVersion := 0
  payload := []
  hashChain := ⟨0, 0⟩
  coord := ⟨"_batch", "_system"⟩
  receiptExtensions := []
  provenance := none

/-- Report a failure against a batch item, keeping the state it happened in. -/
def batchFailedAt {α : Type} (idx : Nat) (m : WriterM α) : WriterM α := fun s =>
  match m s with
  | .ok a s' => .ok a s'
  | .error e s' => .error (.batchFailed idx e) s'

/-- Only the BEGIN marker may rotate: a batch lives in one segment. -/
def rotateIf (cfg : StoreConfig) (flt : Faults) (allowRotation : Bool) : WriterM Bool :=
  if allowRotation then maybeRotateSegment cfg flt else pure false

def writeBatchMarkerFrame (cfg : StoreConfig) (rt : Runtime) (flt : Faults) (i batchId : Nat)
    (kind : EventKind) (payloadSize : Nat) (nowUs : Int) (itemIndexForError : Nat)
    (allowRotation : Bool) : WriterM Nat := batchFailedAt itemIndexForError do
  let nowMs ← liftExcept (wallMsFromTimestampUs nowUs)
  let frame := batchMarkerFrame batchId kind payloadSize nowUs nowMs
  let length ← liftExcept (frameEncode rt (flt.encode i) frame)
  let _ ← rotateIf cfg flt allowRotation
  writeFrame flt i frame length

/-- Write one item frame and fix its receipt's disk position. -/
def writeBatchEventFrame (rt : Runtime) (flt : Faults) (idx : Nat) (st : StagedCommittedEvent) :
    WriterM AppendReceipt := batchFailedAt idx do
  liftExcept (ensure (st.frame.payload.length ≤ u32Max)
    (.serialization "payload size exceeds u32::MAX (4GB limit)"))
  let length ← liftExcept (frameEncode rt (flt.encode (idx + 1)) st.frame)
  let offset ← writeStaged flt (idx + 1) st length
  liftExcept (ensure (length ≤ u32Max)
    (.serialization "encoded batch frame length exceeds u32::MAX"))
  let s ← get
  return { st.receipt with diskPos := ⟨s.segmentId, offset, length⟩ }

def writeBatchEventFrames (rt : Runtime) (flt : Faults) :
    Nat → List StagedCommittedEvent → WriterM (List AppendReceipt)
  | _, [] => pure []
  | idx, st :: rest => do
      let receipt ← writeBatchEventFrame rt flt idx st
      let receipts ← writeBatchEventFrames rt flt (idx + 1) rest
      return receipt :: receipts

/-! ### The commit -/

/-- Record the SIDX rows one by one; a failure keeps the rows already recorded. -/
def recordSidxEntries (flt : Faults) : Nat → List SidxEntry → WriterM Unit
  | _, [] => pure ()
  | idx, row :: rest => do
      liftExcept (ensure (!flt.sidxRecord idx) .internerExhausted)
      modify fun s => { s with sidxCollector := s.sidxCollector ++ [row] }
      recordSidxEntries flt (idx + 1) rest

/-- Record the keyed items in the durable idempotency map. -/
def recordBatchIdempotency (idemp : IdempotencyStore) (keyed : Bool)
    (entries : List IndexEntry) : IdempotencyStore :=
  if keyed then
    entries.foldl (fun acc e => acc.record (.fromIndexEntry e e.globalSequence)) idemp
  else idemp

/-- Interning, SIDX rows, idempotency records, index entries. -/
def commitBatch (flt : Faults) (keyed : Bool) (staged : List StagedCommittedEvent)
    (receipts : List AppendReceipt) : WriterM Unit := do
  liftExcept (ensure (!flt.intern) .internerExhausted)
  let placed := staged.zip (receipts.map (·.diskPos))
  recordSidxEntries flt 0 (placed.map fun p => p.1.sidxEntry p.2)
  let entries := placed.map fun p => p.1.indexEntry p.2
  modify fun s => { s with
    index := ({ s.index with
      idemp := recordBatchIdempotency s.index.idemp keyed entries } : StoreIndex).insertBatch
        entries }

/-- `sync_with_mode` followed by the durable advance, with the batch's own error. -/
def syncBatch (flt : Faults) (count : Nat) : WriterM Unit := fun s =>
  match syncActiveSegment flt s with
  | .ok () s' => .ok () s'
  | .error e s' => .error (.batchSyncFailed count e) s'

/-- Frontier of a staged batch: its last event. -/
def batchFrontier (staged : List StagedCommittedEvent) : HlcPoint :=
  (staged.getLast?.map (·.point)).getD .origin

/-- Reserve the batch's sequences. They are not returned when a later step fails. -/
def reserveSequences (n : Nat) : WriterM Nat := fun s =>
  .ok s.index.gate.allocated { s with
    index := { s.index with gate := s.index.gate.reserve n } }

/-- Stage the reserved batch, write its envelope and sync it. -/
def prepareBatch (cfg : StoreConfig) (rt : Runtime) (flt : Faults) (nowUs : Int)
    (items : List BatchAppendItem) (firstSeq : Nat) (fenced : Bool) :
    WriterM (List StagedCommittedEvent × List AppendReceipt) := do
  let count := items.length
  let nowMs ← batchFailedAt 0 (liftExcept (wallMsFromTimestampUs nowUs))
  let s ← get
  let ctx : BatchContext := ⟨nowUs, nowMs, firstSeq, s.segmentId, fenceIdentity s fenced⟩
  let staged ← precomputeBatchItems rt ctx items [] []
  liftExcept (ensure (count ≤ u32Max)
    (.serialization "prepared batch item count exceeds u32::MAX"))
  let _ ← writeBatchMarkerFrame cfg rt flt 0 firstSeq .systemBatchBegin count nowUs 0 true
  let receipts ← writeBatchEventFrames rt flt 0 staged
  let _ ← writeBatchMarkerFrame cfg rt flt (count + 1) firstSeq .systemBatchCommit 0 nowUs
    (count - 1) false
  syncBatch flt count
  return (staged, receipts)

def handlePreparedBatch (cfg : StoreConfig) (rt : Runtime) (flt : Faults) (nowUs : Int)
    (items : List BatchAppendItem) (fenced : Bool) : WriterM (List AppendReceipt) := do
  let firstSeq ← reserveSequences items.length
  let (staged, receipts) ← prepareBatch cfg rt flt nowUs items firstSeq fenced
  commitBatch flt (items.any fun i => i.idempotencyKey.isSome) staged receipts
  publishCommitted fenced firstSeq (firstSeq + items.length) (batchFrontier staged)
    (staged.map (·.notification))
  return receipts

/-- Admit the batch's new keys as one unit. -/
def admitBatchKeys (items : List BatchAppendItem) : WriterM Unit := fun s =>
  match s.index.idemp.admitNewKeys (items.filterMap (·.idempotencyKey)) s.index.globalSequence with
  | (.ok (), idemp) => .ok () { s with index := { s.index with idemp := idemp } }
  | (.error e, idemp) => .error e { s with index := { s.index with idemp := idemp } }

def handleAppendBatch (cfg : StoreConfig) (rt : Runtime) (flt : Faults) (nowUs : Int)
    (items : List BatchAppendItem) (fenced : Bool) : WriterM (List AppendReceipt) := do
  liftExcept (validateBatch cfg rt items)
  if items.isEmpty then return []
  else do
    let keyedCount := (items.filter fun i => i.idempotencyKey.isSome).length
    liftExcept (ensure (keyedCount = 0 ∨ keyedCount = items.length)
      (.idempotencyPartialBatch "batch must have all items keyed or all unkeyed"))
    let s ← get
    match ← liftExcept (preflightBatchIdempotency rt s.index items) with
    | some cached => return cached
    | none => do
        admitBatchKeys items
        handlePreparedBatch cfg rt flt nowUs items fenced

end Batpak.Store
