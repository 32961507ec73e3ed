/-
Module: Batpak.Store.WriterPhases
Purpose: The writer thread one phase at a time, as readers on other threads see the published
  watermarks between any two phases of an append or a batch.
Trusted boundary: as for the appends
Main exports: Stage, WriterMachine
-/
import Batpak.Store.WriterLoop

namespace Batpak.Store

open Batpak.Util

/-- What a command in progress needs to be finished: its response channel, the fence token
it was submitted under, and the platform calls that fail. -/
structure Ticket where
  respond : Nat
  token : Option Nat
  faults : Faults

def Ticket.fenced (t : Ticket) : Bool :=
  t.token.isSome

/-- A batch whose sequences are reserved and whose items are staged. -/
structure BatchPlan where
  nowUs : Int
  firstSeq : Nat
  count : Nat
  keyed : Bool
  staged : List StagedCommittedEvent

/-- How far the command in progress has come. -/
inductive Stage where
  | idle
  | accepted (t : Ticket) (keyed : Bool) (st : StagedCommittedEvent) (length : Nat)
  | rotated (t : Ticket) (keyed : Bool) (st : StagedCommittedEvent) (length : Nat)
  | written (t : Ticket) (keyed : Bool) (st : StagedCommittedEvent) (pos : DiskPos)
  | committed (t : Ticket) (st : StagedCommittedEvent) (pos : DiskPos)
  | batchStaged (t : Ticket) (plan : BatchPlan)
  | batchRotated (t : Ticket) (plan : BatchPlan) (marker : Frame) (length : Nat)
  | batchOpen (t : Ticket) (plan : BatchPlan) (receipts : List AppendReceipt)
      (remaining : List StagedCommittedEvent)
  | batchClosed (t : Ticket) (plan : BatchPlan) (receipts : List AppendReceipt)
  | batchSynced (t : Ticket) (plan : BatchPlan) (receipts : List AppendReceipt)
  | batchCommitted (t : Ticket) (plan : BatchPlan) (receipts : List AppendReceipt)

/-- Events that have a sequence but are not indexed yet. -/
def Stage.inFlight : Stage → List StagedCommittedEvent
  | .accepted _ _ st _ | .rotated _ _ st _ | .written _ _ st _ => [st]
  | .batchStaged _ plan | .batchRotated _ plan _ _ | .batchOpen _ plan _ _
  | .batchClosed _ plan _ | .batchSynced _ plan _ => plan.staged
  | .idle | .committed .. | .batchCommitted .. => []

structure WriterMachine where
  core : WriterCore
  stage : Stage

/-! ### Answering -/

/-- Hand a receipt over: queued in the ledger under a fence, sent at once otherwise. -/
def deliver (t : Ticket) (reply : Reply) (pending : PendingFenceResponse) (s : WriterCore) :
    WriterCore :=
  match t.token with
  | none => sendReply t.respond reply s
  | some _ => { s with fenceLedger := s.fenceLedger.map fun fence =>
      { fence with responses := fence.responses ++ [pending] } }

def deliverReceipt (t : Ticket) (receipt : AppendReceipt) : WriterCore → WriterCore :=
  deliver t (.receipt (.ok receipt)) (.single t.respond receipt)

def deliverReceipts (t : Ticket) (receipts : List AppendReceipt) : WriterCore → WriterCore :=
  deliver t (.receipts (.ok receipts)) (.batch t.respond receipts)

/-! ### The phases of a single append -/

/-- The idempotency lookup of a request that may be unkeyed. -/
def replayKey (rt : Runtime) (req : AppendRequest) : WriterM (Option AppendReceipt) :=
  match req.idempotencyKey with
  | none => pure none
  | some key => tryIdempotencyReplay rt key

/-- The guards, the idempotency lookup, acceptance and encoding. A known key is answered
without entering the commit protocol. -/
def startAppend (rt : Runtime) (t : Ticket) (req : AppendRequest) :
    WriterM (AppendReceipt ⊕ StagedCommittedEvent × Nat) := do
  let s ← get
  let latest := s.index.getLatestCommitted req.coord.entity req.dagLane
  liftExcept (checkExpectedSequence req latest)
  match ← replayKey rt req with
  | some receipt => return .inl receipt
  | none => do
      let st ← acceptAppend rt req latest t.fenced
      let length ← liftExcept (frameEncode rt (t.faults.encode 0) st.frame)
      return .inr (st, length)

/-- Write the accepted event's frame and note where it went. -/
def placeAppend (t : Ticket) (st : StagedCommittedEvent) (length : Nat) : WriterM DiskPos := do
  let offset ← writeStaged t.faults 0 st length
  liftExcept (ensure (length ≤ u32Max)
    (.serialization "encoded frame length exceeds u32::MAX"))
  let s ← get
  return ⟨s.segmentId, offset, length⟩

/-! ### The phases of a batch -/

/-- The guards, the reservation and the staging of every item. -/
def startBatch (cfg : StoreConfig) (rt : Runtime) (t : Ticket) (nowUs : Int)
    (items : List BatchAppendItem) : WriterM (List AppendReceipt ⊕ BatchPlan) := do
  liftExcept (validateBatch cfg rt items)
  if items.isEmpty then return .inl []
  else do
    let keyedCount := (items.filter fun i => i.idempotencyKey.isSome).length
    liftExcept (ensure (keyedCount = 0 ∨ keyedCount = items.length)
      (.idempotencyPartialBatch "batch must have all items keyed or all unkeyed"))
    let s ← get
    match ← liftExcept (preflightBatchIdempotency rt s.index items) with
    | some cached => return .inl cached
    | none => do
        admitBatchKeys items
        let firstSeq ← reserveSequences items.length
        let nowMs ← batchFailedAt 0 (liftExcept (wallMsFromTimestampUs nowUs))
        let s ← get
        let staged ← precomputeBatchItems rt
          ⟨nowUs, nowMs, firstSeq, s.segmentId, fenceIdentity s t.fenced⟩ items [] []
        liftExcept (ensure (items.length ≤ u32Max)
          (.serialization "prepared batch item count exceeds u32::MAX"))
        return .inr ⟨nowUs, firstSeq, items.length,
          items.any fun i => i.idempotencyKey.isSome, staged⟩

/-- Encode the BEGIN marker and rotate a full segment away before writing it. -/
def rotateForBatch (cfg : StoreConfig) (rt : Runtime) (t : Ticket) (plan : BatchPlan) :
    WriterM (Frame × Nat) := batchFailedAt 0 do
  let nowMs ← liftExcept (wallMsFromTimestampUs plan.nowUs)
  let marker := batchMarkerFrame plan.firstSeq .systemBatchBegin plan.count plan.nowUs nowMs
  let length ← liftExcept (frameEncode rt (t.faults.encode 0) marker)
  let _ ← rotateIf cfg t.faults true
  return (marker, length)

/-! ### One step -/

/-- The next phase of the command in progress. A failure carries the command's reply. -/
def phase (cfg : StoreConfig) (rt : Runtime) : Stage → WriterM Stage
  | .idle => pure .idle
  | .accepted t keyed st length => do
      let _ ← maybeRotateSegment cfg t.faults
      return .rotated t keyed st length
  | .rotated t keyed st length => do
      let pos ← placeAppend t st length
      return .written t keyed st pos
  | .written t keyed st pos => do
      commitStaged t.faults keyed st pos
      return .committed t st pos
  | .committed t st pos => do
      publishCommitted t.fenced st.globalSequence (st.globalSequence + 1) st.point
        [st.notification]
      modify (deliverReceipt t { st.receipt with diskPos := pos })
      return .idle
  | .batchStaged t plan => do
      let (marker, length) ← rotateForBatch cfg rt t plan
      return .batchRotated t plan marker length
  | .batchRotated t plan marker length => do
      let _ ← batchFailedAt 0 (writeFrame t.faults 0 marker length)
      return .batchOpen t plan [] plan.staged
  | .batchOpen t plan receipts (st :: remaining) => do
      let receipt ← writeBatchEventFrame rt t.faults receipts.length st
      return .batchOpen t plan (receipts ++ [receipt]) remaining
  | .batchOpen t plan receipts [] => do
      let _ ← writeBatchMarkerFrame cfg rt t.faults (plan.count + 1) plan.firstSeq
        .systemBatchCommit 0 plan.nowUs (plan.count - 1) false
      return .batchClosed t plan receipts
  | .batchClosed t plan receipts => do
      syncBatch t.faults plan.count
      return .batchSynced t plan receipts
  | .batchSynced t plan receipts => do
      commitBatch t.faults plan.keyed plan.staged receipts
      return .batchCommitted t plan receipts
  | .batchCommitted t plan receipts => do
      publishCommitted t.fenced plan.firstSeq (plan.firstSeq + plan.count)
        (batchFrontier plan.staged) (plan.staged.map (·.notification))
      modify (deliverReceipts t receipts)
      return .idle

/-- Response channel and kind of reply of the command in progress. -/
def Stage.failWith (e : StoreError) : Stage → WriterCore → WriterCore
  | .idle => id
  | .accepted t .. | .rotated t .. | .written t .. | .committed t .. =>
      sendReply t.respond (.receipt (.error e))
  | .batchStaged t _ | .batchRotated t .. | .batchOpen t .. | .batchClosed t ..
  | .batchSynced t .. | .batchCommitted t .. =>
      sendReply t.respond (.receipts (.error e))

def advance (cfg : StoreConfig) (rt : Runtime) (m : WriterMachine) : WriterMachine :=
  match phase cfg rt m.stage m.core with
  | .ok stage s => ⟨s, stage⟩
  | .error e s => ⟨m.stage.failWith e s, .idle⟩

def takeAppend (rt : Runtime) (t : Ticket) (req : AppendRequest) (s : WriterCore) :
    WriterMachine :=
  match startAppend rt t req s with
  | .error e s' => ⟨sendReply t.respond (.receipt (.error e)) s', .idle⟩
  | .ok (.inl receipt) s' => ⟨deliverReceipt t receipt s', .idle⟩
  | .ok (.inr (st, length)) s' => ⟨s', .accepted t req.idempotencyKey.isSome st length⟩

def takeBatch (cfg : StoreConfig) (rt : Runtime) (t : Ticket) (nowUs : Int)
    (items : List BatchAppendItem) (s : WriterCore) : WriterMachine :=
  match startBatch cfg rt t nowUs items s with
  | .error e s' => ⟨sendReply t.respond (.receipts (.error e)) s', .idle⟩
  | .ok (.inl receipts) s' => ⟨deliverReceipts t receipts s', .idle⟩
  | .ok (.inr plan) s' => ⟨s', .batchStaged t plan⟩

/-- Take the next command. Appends and batches stop at their first phase, every other
command runs to its deferred reply. -/
def takeCommand (cfg : StoreConfig) (rt : Runtime) (loop : WriterLoopPhase) (q : QueuedCommand)
    (s : WriterCore) : WriterMachine :=
  match q.command with
  | .append req respond => takeAppend rt ⟨respond, none, q.faults⟩ req s
  | .fenceAppend token req respond =>
      if s.fenceLedger.map (·.token) = some token then
        takeAppend rt ⟨respond, some token, q.faults⟩ req s
      else ⟨sendReply respond (.receipt (.error .visibilityFenceNotActive)) s, .idle⟩
  | .appendBatch nowUs items respond => takeBatch cfg rt ⟨respond, none, q.faults⟩ nowUs items s
  | .fenceAppendBatch token nowUs items respond =>
      if s.fenceLedger.map (·.token) = some token then
        takeBatch cfg rt ⟨respond, some token, q.faults⟩ nowUs items s
      else ⟨sendReply respond (.receipts (.error .visibilityFenceNotActive)) s, .idle⟩
  | _ => ⟨runCommand cfg rt q.faults loop q.command s, .idle⟩

/-- What the writer thread does next: a whole action when it is idle, or the next phase of
the command in progress. -/
inductive MachineStep where
  | start (action : WriterStep)
  | advance

def machineStep (cfg : StoreConfig) (rt : Runtime) (m : WriterMachine) : MachineStep → WriterMachine
  | .advance => advance cfg rt m
  | .start action =>
      match m.stage, action with
      | .idle, .command loop q => takeCommand cfg rt loop q m.core
      | .idle, action => ⟨writerStep cfg rt m.core action, .idle⟩
      | _, _ => m

end Batpak.Store
