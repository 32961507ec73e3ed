/-
Module: Batpak.Store.Cursor
Purpose: Pull-based delivery: the index as a cursor sees it change, polling in its two halves,
  and the supervised cursor worker with its durable checkpoint.
Trusted boundary: an index operation and the upgrade of one hit are atomic; a renamed
  checkpoint file stays; gap observation is left out, it feeds nothing back
Main exports: GateOp, Feed
-/
import Batpak.Store.Query

namespace Batpak.Store

/-! ### The index under the writer -/

/-- What the writer does to the sequence gate. -/
inductive GateOp where
  | reserve (n : Nat)
  | publish (upTo : Nat) (lanes : List (Nat × Nat))
  | beginFence
  | noteProgress (token start stop : Nat)
  | finishFence (token : Nat) (publishTo : Option Nat) (lanes : List (Nat × Nat))
  | cancelFence (token : Nat)

/-- A refused operation leaves the index as it is. -/
def StoreIndex.applyGateOp (ix : StoreIndex) : GateOp → StoreIndex
  | .reserve n => { ix with gate := ix.gate.reserve n }
  | .publish upTo lanes =>
      match ix.gate.publishOnLanes upTo lanes "publish_then_broadcast_unfenced" with
      | .ok gate => { ix with gate := gate }
      | .error _ => ix
  | .beginFence => { ix with gate := ix.gate.beginFence.2 }
  | .noteProgress token start stop =>
      match ix.gate.noteFenceProgress token start stop with
      | .ok gate => { ix with gate := gate }
      | .error _ => ix
  | .finishFence token publishTo lanes =>
      match ix.gate.finishFenceOnLanes token publishTo lanes with
      | .ok gate => { ix with gate := gate }
      | .error _ => ix
  | .cancelFence token =>
      match ix.cancelVisibilityFence token with
      | .ok ix => ix
      | .error _ => ix

/-- The gate a swap leaves. The fresh bound is published on the cleared gate; if that is
refused the swap returns the error before the lane bounds and the cancelled ranges. -/
def SequenceGate.adopt (live fresh : SequenceGate) : SequenceGate :=
  let gate := live.restoreAllocator fresh.allocated
  match gate.publish fresh.visible "replace_contents_from_fresh" with
  | .ok gate =>
      (gate.restoreLaneVisible fresh.laneVisible).restoreCancelledRanges
        fresh.cancelledRangesSnapshot
  | .error _ => gate

namespace ScannedIndex

/-- First half of a swap: every map, the overlays and the gate are cleared. -/
def beginSwap (ix : ScannedIndex) : ScannedIndex :=
  ⟨{ ix.index with inserted := [], latest := [], gate := ix.index.gate.clear }, ix.scan.clear⟩

/-- Second half: the fresh contents are moved in. -/
def finishSwap (walk : Walk) (ix : ScannedIndex) (fresh : StoreIndex) : ScannedIndex :=
  let index := { ix.index with
    inserted := fresh.inserted
    latest := fresh.latest
    gate := ix.index.gate.adopt fresh.gate }
  ⟨index, (walk.order fresh.allEntries).foldl ScanIndex.insert ix.scan⟩

/-- Both halves together replace the contents. -/
theorem finishSwap_beginSwap (walk : Walk) (ix : ScannedIndex) {fresh : StoreIndex}
    (h : fresh.gate.visible ≤ fresh.gate.allocated) :
    finishSwap walk ix.beginSwap fresh = ix.replaceContentsFromFresh walk fresh := by
  have hpublish : (SequenceGate.new.restoreAllocator fresh.gate.allocated).publish
      fresh.gate.visible "replace_contents_from_fresh" =
      .ok { SequenceGate.new.restoreAllocator fresh.gate.allocated with
        visible := fresh.gate.visible } := by
    unfold SequenceGate.publish
    rw [if_neg]
    rintro (hlt | hlt)
    · exact Nat.not_lt.mpr h hlt
    · exact Nat.not_lt_zero _ hlt
  unfold finishSwap beginSwap replaceContentsFromFresh SequenceGate.adopt
    StoreIndex.replaceContentsFromFresh SequenceGate.clear
  dsimp only
  rw [hpublish]
  rfl

end ScannedIndex

/-- The live index, with the fresh one while a swap is between its halves. The swap holds
the gate that queries and inserts take, but not the one hit upgrades would need. -/
structure Feed where
  index : ScannedIndex
  incoming : Option (StoreIndex × Walk)

inductive FeedStep where
  | insert (entry : IndexEntry)
  | insertBatch (entries : List IndexEntry)
  | gate (op : GateOp)
  | swapBegin (fresh : StoreIndex) (walk : Walk)
  | swapFinish

/-- Inserts and a second swap wait for a swap in progress; gate operations do not. -/
def feedStep (f : Feed) : FeedStep → Feed
  | .insert entry =>
      if f.incoming.isSome then f else { f with index := f.index.insert entry }
  | .insertBatch entries =>
      if f.incoming.isSome then f else { f with index := f.index.insertBatch entries }
  | .gate op =>
      { f with index := { f.index with index := f.index.index.applyGateOp op } }
  | .swapBegin fresh walk =>
      if f.incoming.isSome then f else ⟨f.index.beginSwap, some (fresh, walk)⟩
  | .swapFinish =>
      match f.incoming with
      | none => f
      | some (fresh, walk) => ⟨f.index.finishSwap walk fresh, none⟩

/-! ### Polling -/

structure Cursor where
  region : Region
  position : Nat
  started : Bool

def Cursor.new (region : Region) : Cursor :=
  ⟨region, 0, false⟩

def Cursor.checkpoint (c : Cursor) : Nat × Bool :=
  (c.position, c.started)

def Cursor.restoreCheckpoint (c : Cursor) (checkpoint : Nat × Bool) : Cursor :=
  { c with position := checkpoint.1, started := checkpoint.2 }

/-- A cursor in the middle of a poll: the hits not yet upgraded, and the entries returned so
far. -/
structure Reader where
  cursor : Cursor
  pending : List QueryHit
  taken : List IndexEntry

def Reader.idle (cursor : Cursor) : Reader :=
  ⟨cursor, [], []⟩

/-- First half of a poll: query the hits and move the position to the last of them. A
single poll is a batch of one. -/
def Reader.query (walk : Walk) (r : Reader) (ix : ScannedIndex) (max : Nat) : Reader :=
  let hits := ix.queryHitsAfter walk r.cursor.region r.cursor.position r.cursor.started max
  match hits.getLast? with
  | none => r
  | some last =>
      { r with
        cursor := { r.cursor with position := last.globalSequence, started := true }
        pending := hits }

/-- Second half: the next hit is upgraded, or dropped. -/
def Reader.upgrade (r : Reader) (ix : ScannedIndex) : Reader :=
  match r.pending with
  | [] => r
  | hit :: rest => { r with pending := rest, taken := r.taken ++ (ix.upgradeHit hit).toList }

/-- A cursor and the index it reads. `reader.taken` is everything it has returned. -/
structure Delivery where
  feed : Feed
  reader : Reader

inductive DeliveryStep where
  | feed (step : FeedStep)
  | query (walk : Walk) (max : Nat)
  | upgrade

/-- A poll starts when the last one has returned and no swap is in progress. -/
def deliveryStep (d : Delivery) : DeliveryStep → Delivery
  | .feed step => { d with feed := feedStep d.feed step }
  | .query walk max =>
      if d.feed.incoming.isSome || !d.reader.pending.isEmpty then d
      else { d with reader := d.reader.query walk d.feed.index max }
  | .upgrade => { d with reader := d.reader.upgrade d.feed.index }

/-! ### The cursor worker -/

def hexDigits (n : Nat) : String :=
  String.ofList (Nat.toDigits 16 n)

/-- Stable identity of the region a checkpoint belongs to. -/
def Region.checkpointIdentity (r : Region) : String :=
  let entity := r.entityPrefix.getD "*"
  let scope := r.scope.getD "*"
  let fact := match r.fact with
    | some (.exact kind) =>
        "exact:" ++ hexDigits kind.category ++ ":" ++ hexDigits (kind.raw % 2 ^ 12)
    | some (.category category) => "category:" ++ hexDigits category
    | some .any => "any"
    | none => "none"
  let clock := match r.clockRange with
    | some range => toString range.start ++ "-" ++ toString range.stop
    | none => "*"
  let base := "entity=" ++ entity ++ "|scope=" ++ scope ++ "|fact=" ++ fact ++ "|clock=" ++ clock
  match r.lane with
  | some lane => base ++ "|lane=" ++ toString lane
  | none => base

structure CursorCheckpoint where
  position : Nat
  started : Bool
  regionIdentity : Option String
  deriving Repr, DecidableEq

def CursorCheckpoint.fromCheckpoint (checkpoint : Nat × Bool) (identity : String) :
    CursorCheckpoint :=
  ⟨checkpoint.1, checkpoint.2, some identity⟩

/-- The saved position, if the checkpoint belongs to the region. -/
def Cursor.newWithCheckpoint (region : Region) (file : Option CursorCheckpoint) :
    Option Cursor :=
  match file with
  | none => some (.new region)
  | some checkpoint =>
      if checkpoint.regionIdentity = some region.checkpointIdentity then
        some ⟨region, checkpoint.position, checkpoint.started⟩
      else none

inductive CursorWorkerAction where
  | continue
  | stop
  | stopWithRollback
  deriving Repr, DecidableEq

/-- How writing the checkpoint ends. It can fail before the rename, or in the sync of the
directory after it. -/
inductive PersistResult where
  | saved
  | failed (renamed : Bool)
  deriving Repr, DecidableEq

def PersistResult.recorded : PersistResult → Bool
  | .saved => true
  | .failed renamed => renamed

/-- What the handler does with a batch. -/
inductive HandlerOutcome where
  | action (action : CursorWorkerAction) (persist : PersistResult)
  | panic (nowNs : Int)

inductive RestartPolicy where
  | once
  | bounded (maxRestarts withinMs : Nat)
  deriving Repr, DecidableEq

structure CursorWorkerConfig where
  region : Region
  batchSize : Nat
  restart : RestartPolicy

structure CursorRunState where
  reader : Reader
  committed : Nat × Bool
  restarts : Nat
  windowStartNs : Int

/-- Whether one more restart is permitted, consuming a slot. -/
def CursorRunState.restartBudgetOk (s : CursorRunState) (policy : RestartPolicy) (nowNs : Int) :
    Option CursorRunState :=
  match policy with
  | .once => if 1 ≤ s.restarts then none else some { s with restarts := s.restarts + 1 }
  | .bounded maxRestarts withinMs =>
      let elapsedMs := (max (nowNs - s.windowStartNs) 0) / 1000000
      let s := if withinMs < elapsedMs then { s with restarts := 0, windowStartNs := nowNs } else s
      if maxRestarts ≤ s.restarts then none else some { s with restarts := s.restarts + 1 }

/-- A worker with a checkpoint id, the file of that id, and what the handler has completed:
`handled` are the events of the batches it returned `continue` or `stop` for, by id and
sequence, and `completed` is the position of the last of these batches whose checkpoint
reached the file. Neither is read by the worker. -/
structure WorkerSystem where
  feed : Feed
  file : Option CursorCheckpoint
  worker : Option CursorRunState
  handled : List (Nat × Nat)
  completed : Nat × Bool

inductive WorkerStep where
  | feed (step : FeedStep)
  | start (nowNs : Int)
  | poll (walk : Walk)
  | upgrade
  | handle (outcome : HandlerOutcome)
  | halt
  | crash

/-- The checkpoint is written at the position of the cursor. -/
def WorkerSystem.persist (w : WorkerSystem) (c : Cursor) (result : PersistResult) :
    WorkerSystem :=
  if result.recorded then
    { w with
      file := some (.fromCheckpoint c.checkpoint c.region.checkpointIdentity)
      completed := c.checkpoint }
  else w

def WorkerSystem.handleAction (w : WorkerSystem) (s : CursorRunState)
    (action : CursorWorkerAction) (result : PersistResult) : WorkerSystem :=
  let events := s.reader.taken.map fun e => (e.eventId, e.globalSequence)
  match action with
  | .continue =>
      let w := { w with handled := w.handled ++ events }.persist s.reader.cursor result
      match result with
      | .saved =>
          { w with worker := some { s with
              reader := .idle s.reader.cursor
              committed := s.reader.cursor.checkpoint } }
      -- the rolled-back cursor goes with the worker that stops
      | .failed _ => { w with worker := none }
  | .stop =>
      let w := { w with handled := w.handled ++ events }.persist s.reader.cursor result
      { w with worker := none }
  | .stopWithRollback => { w with worker := none }

/-- A panic restarts the worker from the last committed position, within the budget. -/
def WorkerSystem.handlePanic (config : CursorWorkerConfig) (w : WorkerSystem)
    (s : CursorRunState) (nowNs : Int) : WorkerSystem :=
  match s.restartBudgetOk config.restart nowNs with
  | none => { w with worker := none }
  | some s =>
      { w with worker := some { s with
          reader := .idle ((Cursor.new config.region).restoreCheckpoint s.committed) } }

/-- The worker loop, one blocking call at a time. The handler runs once every hit of a batch
has been upgraded and some entry is left; a stop request takes effect between batches, a
crash at any time. -/
def workerStep (config : CursorWorkerConfig) (w : WorkerSystem) : WorkerStep → WorkerSystem
  | .feed step => { w with feed := feedStep w.feed step }
  | .start nowNs =>
      match w.worker, Cursor.newWithCheckpoint config.region w.file with
      | none, some cursor =>
          { w with worker := some ⟨.idle cursor, cursor.checkpoint, 0, nowNs⟩ }
      | _, _ => w
  | .poll walk =>
      match w.worker with
      | some s =>
          if w.feed.incoming.isSome || !s.reader.pending.isEmpty || !s.reader.taken.isEmpty then w
          else
            let reader := s.reader.query walk w.feed.index config.batchSize
            { w with worker := some { s with reader := reader } }
      | none => w
  | .upgrade =>
      match w.worker with
      | some s => { w with worker := some { s with reader := s.reader.upgrade w.feed.index } }
      | none => w
  | .handle outcome =>
      match w.worker with
      | some s =>
          if !s.reader.pending.isEmpty || s.reader.taken.isEmpty then w
          else
            match outcome with
            | .action action result => w.handleAction s action result
            | .panic nowNs => w.handlePanic config s nowNs
      | none => w
  | .halt =>
      match w.worker with
      | some s =>
          if s.reader.pending.isEmpty && s.reader.taken.isEmpty then { w with worker := none }
          else w
      | none => w
  | .crash => { w with worker := none }

end Batpak.Store
