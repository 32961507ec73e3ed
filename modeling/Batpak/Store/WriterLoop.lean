/-
Module: Batpak.Store.WriterLoop
Purpose: The visibility-fence operations of the writer, the execution of every writer
  command in each loop phase, and the sync barrier that settles a command.
Trusted boundary: as for the appends
Main exports: beginVisibilityFence, commitVisibilityFence
-/
import Batpak.Store.WriterBatch

namespace Batpak.Store

open Batpak.Util

/-! ### Fence operations -/

/-- Send one value on a response channel. -/
def sendReply (respond : Nat) (reply : Reply) (s : WriterCore) : WriterCore :=
  { s with replies := (respond, reply) :: s.replies }

def PendingFenceResponse.completeOk (s : WriterCore) : PendingFenceResponse → WriterCore
  | .single respond receipt => sendReply respond (.receipt (.ok receipt)) s
  | .batch respond receipts => sendReply respond (.receipts (.ok receipts)) s

def PendingFenceResponse.completeCancelled (s : WriterCore) : PendingFenceResponse → WriterCore
  | .single respond _ => sendReply respond (.receipt (.error .visibilityFenceCancelled)) s
  | .batch respond _ => sendReply respond (.receipts (.error .visibilityFenceCancelled)) s

/-- The cancelled-ranges side file is rewritten from the gate. -/
def persistCancelledVisibilityRanges (flt : Faults) : WriterM Unit := fun s =>
  if flt.persistRanges then .error (.io "write_cancelled_ranges") s
  else .ok () { s with hiddenRanges := some s.index.gate.cancelledRangesSnapshot }

def beginVisibilityFence (token : Nat) : WriterM Unit := fun s =>
  match s.fenceLedger with
  | some _ => .error .visibilityFenceActive s
  | none =>
      if s.index.gate.activeFenceToken = some token then
        .ok () { s with
          fenceLedger := some ⟨token, none, none, [], [], s.fenceCount⟩
          fenceCount := s.fenceCount + 1 }
      else .error .visibilityFenceNotActive s

/-- Publish what the fence held back and release its receipts. When the gate refuses,
the ledger has already been taken and is lost. -/
def commitVisibilityFence (token : Nat) : WriterM Unit := fun s =>
  match s.fenceLedger with
  | none => .error .visibilityFenceNotActive s
  | some fence =>
      if fence.token ≠ token then .error .visibilityFenceNotActive s
      else
        match s.index.gate.finishFenceOnLanes token fence.publishUpTo
            (laneBounds fence.notifications) with
        | .error e => .error e { s with fenceLedger := none }
        | .ok gate =>
            let watermark :=
              match fence.frontierPoint with
              | some point => s.watermark.advanceVisibleAndEmitted point
              | none => s.watermark
            .ok () (fence.responses.foldl PendingFenceResponse.completeOk { s with
              index := { s.index with gate := gate }
              watermark := advanceVisibleOnLanes watermark fence.notifications
              fenceLedger := none
              committedFences := fence.identity :: s.committedFences })

/-- Hide the fence's hull for good, persist the ranges, fail its receipts. -/
def cancelVisibilityFence (flt : Faults) (token : Nat) : WriterM Unit := fun s =>
  match s.fenceLedger with
  | none => .error .visibilityFenceNotActive s
  | some fence =>
      if fence.token ≠ token then .error .visibilityFenceNotActive s
      else
        match s.index.cancelVisibilityFence token with
        | .error e => .error e { s with fenceLedger := none }
        | .ok index =>
            match persistCancelledVisibilityRanges flt
                { s with fenceLedger := none, index := index } with
            | .error e s' => .error e s'
            | .ok () s' =>
                .ok () (fence.responses.foldl PendingFenceResponse.completeCancelled s')

/-- A shutdown cancels the fence still open; failures are only logged. -/
def autoCancelFenceOnShutdown (flt : Faults) (s : WriterCore) : WriterCore :=
  match s.fenceLedger with
  | none => s
  | some fence =>
      let s := { s with fenceLedger := none }
      let s :=
        match s.index.cancelVisibilityFence fence.token with
        | .ok index => { s with index := index }
        | .error _ => s
      fence.responses.foldl PendingFenceResponse.completeCancelled
        (finalState (persistCancelledVisibilityRanges flt s))

/-! ### Commands -/

inductive WriterCommand where
  | beginVisibilityFence (token respond : Nat)
  | append (req : AppendRequest) (respond : Nat)
  | fenceAppend (token : Nat) (req : AppendRequest) (respond : Nat)
  | appendBatch (nowUs : Int) (items : List BatchAppendItem) (respond : Nat)
  | fenceAppendBatch (token : Nat) (nowUs : Int) (items : List BatchAppendItem) (respond : Nat)
  | commitVisibilityFence (token respond : Nat)
  | cancelVisibilityFence (token respond : Nat)
  | sync (respond : Nat)
  | shutdown (respond : Nat)

inductive WriterLoopPhase where
  | main
  | groupCommitDrain
  | shutdownDrain
  deriving Repr, Inhabited, DecidableEq

inductive DeferredReply where
  | none
  | sync (respond : Nat)
  | beginVisibilityFence (token respond : Nat)
  | commitVisibilityFence (token respond : Nat)
  | shutdown (respond : Nat)
  deriving Repr, Inhabited, DecidableEq

structure CommandResult where
  syncEventDelta : Nat
  breakAfterReply : Bool
  mustSyncBeforeContinue : Bool
  exitWriter : Bool
  deferredReply : DeferredReply
  shutdownDrainRespond : Option Nat
  enterGroupCommitDrain : Bool
  deriving Repr, Inhabited, DecidableEq

namespace CommandResult

def immediate (delta : Nat) : CommandResult :=
  ⟨delta, false, false, false, .none, Option.none, false⟩

def withSync (r : CommandResult) (deferred : DeferredReply) : CommandResult :=
  { r with mustSyncBeforeContinue := true, deferredReply := deferred }

def breakIf (r : CommandResult) (condition : Bool) : CommandResult :=
  { r with breakAfterReply := r.breakAfterReply || condition }

end CommandResult

/-- Run an operation and send its outcome. -/
def respondWith {α : Type} (respond : Nat) (mk : Except StoreError α → Reply) (m : WriterM α)
    (s : WriterCore) : WriterCore :=
  match m s with
  | .ok a s' => sendReply respond (mk (.ok a)) s'
  | .error e s' => sendReply respond (mk (.error e)) s'

/-- Run an append under the open fence: a receipt is queued in the ledger, an error is
answered at once. -/
def underFence {α : Type} (token respond : Nat) (mk : Except StoreError α → Reply)
    (pending : α → PendingFenceResponse) (m : WriterM α) (s : WriterCore) :
    Nat × WriterCore :=
  if s.fenceLedger.map (·.token) = some token then
    match m s with
    | .ok a s' =>
        (1, { s' with fenceLedger := s'.fenceLedger.map fun fence =>
          { fence with responses := fence.responses ++ [pending a] } })
    | .error e s' => (0, sendReply respond (mk (.error e)) s')
  else (0, sendReply respond (mk (.error .visibilityFenceNotActive)) s)

def executeCommand (cfg : StoreConfig) (rt : Runtime) (flt : Faults) (phase : WriterLoopPhase)
    (cmd : WriterCommand) (s : WriterCore) : CommandResult × WriterCore :=
  match cmd with
  | .beginVisibilityFence token respond =>
      match phase with
      | .groupCommitDrain =>
          (((CommandResult.immediate 0).withSync (.beginVisibilityFence token respond)).breakIf true,
            s)
      | _ => (.immediate 0, respondWith respond .unit (beginVisibilityFence token) s)
  | .append req respond =>
      ({ CommandResult.immediate 1 with enterGroupCommitDrain := phase = .main },
        respondWith respond .receipt (handleAppend cfg rt flt req false) s)
  | .fenceAppend token req respond =>
      let (delta, s') := underFence token respond .receipt (.single respond)
        (handleAppend cfg rt flt req true) s
      (.immediate delta, s')
  | .appendBatch nowUs items respond =>
      (.immediate 1,
        respondWith respond .receipts (handleAppendBatch cfg rt flt nowUs items false) s)
  | .fenceAppendBatch token nowUs items respond =>
      let (delta, s') := underFence token respond .receipts (.batch respond)
        (handleAppendBatch cfg rt flt nowUs items true) s
      (.immediate delta, s')
  | .commitVisibilityFence token respond =>
      match phase with
      | .shutdownDrain =>
          (.immediate 0, respondWith respond .unit (commitVisibilityFence token) s)
      | _ =>
          (((CommandResult.immediate 0).withSync (.commitVisibilityFence token respond)).breakIf
            (phase = .groupCommitDrain), s)
  | .cancelVisibilityFence token respond =>
      ((CommandResult.immediate 0).breakIf (phase = .groupCommitDrain),
        respondWith respond .unit (cancelVisibilityFence flt token) s)
  | .sync respond =>
      match phase with
      | .shutdownDrain => (.immediate 0, respondWith respond .unit (syncActiveSegment flt) s)
      | _ =>
          (((CommandResult.immediate 0).withSync (.sync respond)).breakIf
            (phase = .groupCommitDrain), s)
  | .shutdown respond =>
      match phase with
      | .main =>
          ({ CommandResult.immediate 0 with
            exitWriter := true, shutdownDrainRespond := some respond }, s)
      | .groupCommitDrain =>
          ({ ((CommandResult.immediate 0).withSync (.shutdown respond)).breakIf true with
            exitWriter := true }, s)
      | .shutdownDrain => (.immediate 0, sendReply respond (.unit (.ok ())) s)

/-- Answer a command that waited for the sync barrier. -/
def DeferredReply.send (d : DeferredReply) (syncResult : Except StoreError Unit)
    (s : WriterCore) : WriterCore :=
  match d with
  | .none => s
  | .sync respond => sendReply respond (.unit syncResult) s
  | .beginVisibilityFence token respond =>
      match syncResult with
      | .ok () => respondWith respond .unit (Store.beginVisibilityFence token) s
      | .error e => sendReply respond (.unit (.error e)) s
  | .commitVisibilityFence token respond =>
      match syncResult with
      | .ok () => respondWith respond .unit (Store.commitVisibilityFence token) s
      | .error e => sendReply respond (.unit (.error e)) s
  | .shutdown respond => sendReply respond (.unit syncResult) s

/-- Sync the active segment, keeping the outcome for the deferred reply. -/
def syncOutcome (flt : Faults) (s : WriterCore) : Except StoreError Unit × WriterCore :=
  match syncActiveSegment flt s with
  | .ok () s' => (.ok (), s')
  | .error e s' => (.error e, s')

/-- The sync barrier of a command, then its deferred reply. -/
def settle (flt : Faults) (result : CommandResult) (s : WriterCore) : WriterCore :=
  if result.mustSyncBeforeContinue then
    let (syncResult, s') := syncOutcome flt s
    result.deferredReply.send syncResult s'
  else s

/-- One command from start to finish: execution, sync barrier, deferred reply. -/
def runCommand (cfg : StoreConfig) (rt : Runtime) (flt : Faults) (phase : WriterLoopPhase)
    (cmd : WriterCommand) (s : WriterCore) : WriterCore :=
  let (result, s') := executeCommand cfg rt flt phase cmd s
  settle flt result s'

/-- End of an orderly shutdown: cancel the open fence, write the SIDX footer, sync. -/
def finishShutdown (flt : Faults) (s : WriterCore) : Except StoreError Unit × WriterCore :=
  let s := autoCancelFenceOnShutdown flt s
  let s := if flt.footer then s else { s with active := s.active.writeSidxFooter s.sidxCollector }
  syncOutcome flt s

/-- The shutdown's own reply carries the outcome of its last sync. -/
def completeShutdown (respond : Nat) (flt : Faults) (s : WriterCore) : WriterCore :=
  let (outcome, s') := finishShutdown flt s
  sendReply respond (.unit outcome) s'

/-! ### The loop -/

structure QueuedCommand where
  command : WriterCommand
  faults : Faults

structure WriterLoopState where
  core : WriterCore
  queue : List QueuedCommand
  eventsSinceSync : Nat

/-- Execute and settle one command, counting the events since the last sync. -/
def stepCommand (cfg : StoreConfig) (rt : Runtime) (phase : WriterLoopPhase) (q : QueuedCommand)
    (core : WriterCore) (eventsSinceSync : Nat) : CommandResult × WriterCore × Nat :=
  let (result, core') := executeCommand cfg rt q.faults phase q.command core
  let count := eventsSinceSync + result.syncEventDelta
  (result, settle q.faults result core', if result.mustSyncBeforeContinue then 0 else count)

/-- Sync after enough events, whatever the outcome. -/
def periodicSync (cfg : StoreConfig) (flt : Faults) (st : WriterLoopState) : WriterLoopState :=
  if cfg.syncEveryNEvents ≤ st.eventsSinceSync then
    { st with
      core := (syncOutcome { flt with sync := flt.periodicSync } st.core).2
      eventsSinceSync := 0 }
  else st

/-! ### Runs of the writer -/

/-- One uninterrupted action of the writer thread: a command executed in some phase up
to its deferred reply, a periodic sync, or the end of an orderly shutdown. -/
inductive WriterStep where
  | command (phase : WriterLoopPhase) (q : QueuedCommand)
  | periodicSync (fails : Bool)
  | completeShutdown (respond : Nat) (flt : Faults)

def writerStep (cfg : StoreConfig) (rt : Runtime) (s : WriterCore) : WriterStep → WriterCore
  | .command phase q => runCommand cfg rt q.faults phase q.command s
  | .periodicSync fails => (syncOutcome { Faults.none with sync := fails } s).2
  | .completeShutdown respond flt => completeShutdown respond flt s

/-- The writer as it is spawned over a recovered index: a new active segment, no rows
collected, no fence, watermarks not yet bootstrapped. -/
def WriterCore.spawn (cfg : StoreConfig) (index : StoreIndex) (files : List Segment)
    (ranges : Option CancelledVisibilityRanges) (segmentId : Nat) : WriterCore where
  index := index
  active := .create segmentId cfg.headerBytes
  sealed := files
  segmentId := segmentId
  watermark := .default
  sidxCollector := []
  fenceLedger := none
  hiddenRanges := ranges
  replies := []
  fenceCount := 0
  committedFences := []

/-! ### Evaluating the model -/

/-- A runtime without a signing key: lengths stand in for hashes, and a frame costs its
payload plus a fixed envelope. -/
def Runtime.unsigned : Runtime where
  computeHash := fun payload => payload.length + 1
  frameLength := fun f => 160 + f.payload.length
  footerRowLength := 200
  extensionsLength := fun exts => (exts.map fun e => e.2.length).sum
  coverBytes := fun _ _ _ _ _ _ _ => some 0
  signer := none
  downgradeBody := none

/-- A configuration with small segments and batches. -/
def StoreConfig.small : StoreConfig where
  segmentMaxBytes := 1000
  headerBytes := 32
  batchMaxSize := 16
  batchMaxBytes := 4096
  groupCommitDrainBudget := 4
  syncEveryNEvents := 8
  shutdownDrainLimit := 16

end Batpak.Store
