/-
Module: Batpak.Store.Lifecycle
Purpose: A store over its whole life: opened over the files it finds, driven by the writer,
  compacted while it runs, closed or lost in a crash, and opened again.
Trusted boundary: the side files are written atomically; a crash keeps everything that was
  fsynced
Main exports: SideFiles, StoreState
-/
import Batpak.Store.ColdStart
import Batpak.Store.DataDir
import Batpak.Store.Open

namespace Batpak.Store

open Batpak.Util

/-- The side files that only opens, closes and compactions touch. -/
structure SideFiles where
  idemp : Option (List IdempEntry)
  snapshot : Option Snapshot

/-- Settings of the lifecycle: idempotency retention and whether snapshots are written. -/
structure LifecycleConfig where
  store : StoreConfig
  retention : IdempotencyRetention
  overflow : OverflowPolicy
  snapshots : Bool

/-- Specification-only: how many fences were begun in all lives of the store, and which of
them committed. -/
structure FenceHistory where
  count : Nat
  committed : List Nat

def WriterCore.fences (core : WriterCore) : FenceHistory :=
  ⟨core.fenceCount, core.committedFences⟩

/-- A store is open with a running writer, or closed with what is on disk. -/
inductive StoreState where
  | opened (core : WriterCore) (side : SideFiles)
  | closed (segments : List Segment) (ranges : Option CancelledVisibilityRanges)
      (side : SideFiles) (fences : FenceHistory)

/-- The running store, when there is one. -/
def StoreState.core? : StoreState → Option WriterCore
  | .opened core _ => some core
  | .closed .. => none

/-! ### Compaction of a running store -/

/-- Which parts of a compaction fail. Anything before the swap is rolled back. -/
structure CompactFaults where
  sync : Bool
  materialize : Bool
  flush : Bool
  artifacts : Bool
  deriving Repr, Inhabited, DecidableEq

def CompactFaults.none : CompactFaults :=
  ⟨false, false, false, false⟩

/-- The merged file: synced and sealed, without a footer. -/
def mergedSegment (cfg : StoreConfig) (id : Nat) (chunks : List Chunk) : Segment :=
  { Segment.create id cfg.headerBytes with
    chunks := chunks
    synced := chunks.length
    writtenBytes := cfg.headerBytes + (chunks.map Chunk.length).sum }

/-- The index rebuilt off-side from the compacted files. -/
def freshCompactionIndex (cfg : LifecycleConfig) (ranges : Option CancelledVisibilityRanges)
    (activeId : Nat) (segments : List Segment) : Except StoreError StoreIndex := do
  let (entries, hint) ← collectRebuildEntries (some activeId) segments
  let fresh := (StoreIndex.new cfg.retention cfg.overflow).restoreSortedEntries entries hint
  return match ranges with
    | some ranges => fresh.restoreCancelledVisibilityRanges ranges
    | none => fresh

/-- The merged file and the index a compaction would swap in. -/
def compactionResult (cfg : LifecycleConfig) (rt : Runtime) (strategy : CompactionStrategy)
    (core : WriterCore) : Except StoreError (Segment × StoreIndex) := do
  let chunks ← copiedChunks rt strategy core.sealed
  let merged := mergedSegment cfg.store ((core.sealed.head?.map (·.id)).getD 0) chunks
  let fresh ← freshCompactionIndex cfg core.hiddenRanges core.active.id [merged, core.active]
  return (merged, fresh)

/-- The store right after the swap. The writer keeps its fence ledger and its collected
footer rows; the gate forgets the fence. -/
def swapCompacted (core : WriterCore) (merged : Segment) (fresh : StoreIndex) : WriterCore :=
  { core with
    sealed := [merged]
    index := core.index.replaceContentsFromFresh fresh }

/-- The idempotency sweep at the end of a compaction. -/
def sweepIdemp (core : WriterCore) : WriterCore :=
  let idemp := core.index.idemp.markEvicted fun id => (core.index.byId id).isSome
  { core with
    index := { core.index with idemp := idemp.evict core.index.globalSequence } }

def writeSnapshot (cfg : LifecycleConfig) (rt : Runtime) (fails : Bool) (core : WriterCore)
    (side : SideFiles) : SideFiles :=
  if cfg.snapshots && !fails then
    { side with snapshot := some (.take rt core.index core.segments) }
  else side

/-- `compact`, run to its end. -/
def compactStore (cfg : LifecycleConfig) (rt : Runtime) (minSegments : Nat)
    (strategy : CompactionStrategy) (flt : CompactFaults) (core : WriterCore)
    (side : SideFiles) : WriterCore × SideFiles :=
  let (synced, core) := syncOutcome { Faults.none with sync := flt.sync } core
  match synced with
  | .error _ => (core, side)
  | .ok () =>
      if core.sealed.isEmpty || core.sealed.length < minSegments || flt.materialize then
        (core, side)
      else
        match compactionResult cfg rt strategy core with
        | .error _ => (core, side)
        | .ok (merged, fresh) =>
            let core := sweepIdemp (swapCompacted core merged fresh)
            if flt.flush then (core, side)
            else
              (core, writeSnapshot cfg rt flt.artifacts core
                { side with idemp := some core.index.idemp.map })

/-! ### A compaction that fails -/

/-- The data directory and the live index, which a failing compaction has to leave as they
are. The side files are written after the swap only. -/
structure LiveStore where
  dir : DataDir
  index : StoreIndex

/-- An error before the swap: the directory operation that reports it, and whether that
operation took effect all the same. Writing the marker does when only the sync of its
directory fails. -/
structure PreSwapFault where
  op : Nat
  effect : Bool
  deriving Repr, Inhabited, DecidableEq

/-- How a call of `compact` ends, as far as the swap is concerned. -/
inductive CompactionEnd where
  | skipped
  | failed (fault : PreSwapFault)
  | performed
  deriving Repr, Inhabited, DecidableEq

/-- The operations of a call that fails before the swap. A marker that cannot be written
ends the call with no rollback. -/
def failedOps (preSwap : List DirOp) (mergedId : Nat) (fault : PreSwapFault) : List DirOp :=
  let performed := preSwap.take (if fault.effect then fault.op + 1 else fault.op)
  if fault.op = 0 then performed else performed ++ rollbackOps mergedId (2 < fault.op)

/-- What the part before the swap arrives at: the rebuilt index, or the first of the given
error, sources that cannot be read and an index that cannot be rebuilt. -/
def preSwapResult (preSwapLength : Nat) (copied : Except StoreError (List Chunk))
    (rebuilt : Except StoreError StoreIndex) (fails : Option PreSwapFault) :
    Except PreSwapFault StoreIndex :=
  let own : Except PreSwapFault StoreIndex := match copied, rebuilt with
    | .error _, _ => .error ⟨5, false⟩
    | .ok _, .error _ => .error ⟨preSwapLength - 1, false⟩
    | .ok _, .ok fresh => .ok fresh
  match fails, own with
  | none, own => own
  | some fault, .ok fresh => if fault.op < preSwapLength then .error fault else .ok fresh
  | some fault, .error own => .error (if fault.op < own.op then fault else own)

/-- `rebuild_fresh_compaction_index`, over the files a listing shows while the marker is
in place. -/
def rebuildFromListing (cfg : LifecycleConfig) (ranges : Option CancelledVisibilityRanges)
    (dir : DataDir) : Except StoreError StoreIndex := do
  let files ← dir.segmentPaths
  freshCompactionIndex cfg ranges (dir.findLatestSegmentId.getD 0) (files.map Prod.snd)

/-- `compact` up to the clearing of its marker. The live index is replaced at the swap. -/
def LiveStore.compact (cfg : LifecycleConfig) (rt : Runtime) (minSegments : Nat)
    (strategy : CompactionStrategy) (ranges : Option CancelledVisibilityRanges)
    (fails : Option PreSwapFault) (store : LiveStore) : CompactionEnd × LiveStore :=
  match store.dir.sealedSegments with
  | [] => (.skipped, store)
  | source :: others =>
      if (source :: others).length < minSegments then (.skipped, store)
      else
        let copied := copiedChunks rt strategy ((source :: others).map Prod.snd)
        let ids := (source :: others).map Prod.fst
        let preSwap := preSwapOps cfg.store.headerBytes source.1 ids copied
        let rebuilt := rebuildFromListing cfg ranges (runOps preSwap store.dir)
        match preSwapResult preSwap.length copied rebuilt fails with
        | .error fault =>
            (.failed fault,
              { store with dir := runOps (failedOps preSwap source.1 fault) store.dir })
        | .ok fresh =>
            (.performed,
              { dir := runOps (preSwap ++ finishOps source.1 ids.tail) store.dir
                index := store.index.replaceContentsFromFresh fresh })

/-! ### Close, crash and open -/

/-- How the shutdown of a close goes: whether the writer takes it inside a group-commit
drain, where it only syncs, and which later writes fail. -/
structure CloseInputs where
  respond : Nat
  faults : Faults
  inDrain : Bool
  flushFails : Bool
  snapshotFails : Bool

/-- The writer's answer to a shutdown and the state it leaves. -/
def shutdownWriter (cfg : StoreConfig) (rt : Runtime) (inputs : CloseInputs)
    (core : WriterCore) : Except StoreError Unit × WriterCore :=
  if inputs.inDrain then
    ((syncOutcome inputs.faults core).1,
      runCommand cfg rt inputs.faults .groupCommitDrain (.shutdown inputs.respond) core)
  else
    ((finishShutdown inputs.faults core).1,
      completeShutdown inputs.respond inputs.faults core)

/-- `close`: shutdown, idempotency flush, cold-start artifact. An error skips the rest. -/
def closeStore (cfg : LifecycleConfig) (rt : Runtime) (inputs : CloseInputs) (core : WriterCore)
    (side : SideFiles) : StoreState :=
  match shutdownWriter cfg.store rt inputs core with
  | (.error _, core) => .closed core.segments core.hiddenRanges side core.fences
  | (.ok (), core) =>
      if inputs.flushFails then .closed core.segments core.hiddenRanges side core.fences
      else
        .closed core.segments core.hiddenRanges
          (writeSnapshot cfg rt inputs.snapshotFails core
            { side with idemp := some core.index.idemp.map }) core.fences

/-- What a crash leaves of the active segment: the fsynced chunks at least, `kept` chunks
when that is more, and the first `torn` bytes of the chunk it was cut in. A footer survives
only when nothing before it is cut. -/
def cutSegment (kept torn : Nat) (seg : Segment) : Segment :=
  { seg with
    chunks := seg.chunks.take (max seg.synced kept) ++
      if torn = 0 ∨ seg.chunks.length ≤ max seg.synced kept then [] else [.torn torn]
    footer := if seg.chunks.length ≤ kept then seg.footer else none }

def crashStore (kept torn : Nat) (core : WriterCore) (side : SideFiles) : StoreState :=
  .closed (core.sealed ++ [cutSegment kept torn core.active]) core.hiddenRanges side core.fences

/-- The writer starts on a segment past the newest file. -/
def spawnStore (cfg : LifecycleConfig) (index : StoreIndex) (segments : List Segment)
    (ranges : Option CancelledVisibilityRanges) (fences : FenceHistory) : WriterCore :=
  { WriterCore.spawn cfg.store index segments ranges
      ((segments.getLast?.map (·.id)).getD 0 + 1) with
    fenceCount := fences.count
    committedFences := fences.committed }

/-- Open the files: restore the index, spawn the writer past the newest segment, append and
sync the open event. An open that fails late leaves its segment behind. -/
def openStore (cfg : LifecycleConfig) (rt : Runtime) (inputs : OpenInputs)
    (segments : List Segment) (ranges : Option CancelledVisibilityRanges) (side : SideFiles)
    (fences : FenceHistory) : StoreState :=
  match openIndex rt cfg.retention cfg.overflow side.snapshot side.idemp ranges segments with
  | .error _ => .closed segments ranges side fences
  | .ok index =>
      match completeOpen cfg.store rt inputs (spawnStore cfg index segments ranges fences) with
      | .ok () core => .opened core side
      | .error _ core => .closed core.segments core.hiddenRanges side core.fences

/-! ### Runs -/

/-- The caller's half of beginning a fence: the gate is taken before the writer hears of
it, and without the lifecycle lock. -/
def callerBeginFence (core : WriterCore) : WriterCore :=
  { core with index := { core.index with gate := core.index.gate.beginFence.2 } }

inductive LifecycleStep where
  | beginFence
  | writer (step : WriterStep)
  | compact (minSegments : Nat) (strategy : CompactionStrategy) (flt : CompactFaults)
  | close (inputs : CloseInputs)
  | crash (kept torn : Nat)
  | reopen (inputs : OpenInputs)

def lifecycleStep (cfg : LifecycleConfig) (rt : Runtime) (st : StoreState) :
    LifecycleStep → StoreState
  | .beginFence =>
      match st with
      | .opened core side => .opened (callerBeginFence core) side
      | .closed .. => st
  | .writer step =>
      match st with
      | .opened core side => .opened (writerStep cfg.store rt core step) side
      | .closed .. => st
  | .compact minSegments strategy flt =>
      match st with
      | .opened core side =>
          let (core, side) := compactStore cfg rt minSegments strategy flt core side
          .opened core side
      | .closed .. => st
  | .close inputs =>
      match st with
      | .opened core side => closeStore cfg rt inputs core side
      | .closed .. => st
  | .crash kept torn =>
      match st with
      | .opened core side => crashStore kept torn core side
      | .closed .. => st
  | .reopen inputs =>
      match st with
      | .opened .. => st
      | .closed segments ranges side fences =>
          openStore cfg rt inputs segments ranges side fences

/-- A directory nothing was ever written to. -/
def StoreState.blank : StoreState :=
  .closed [] none ⟨none, none⟩ ⟨0, []⟩

/-- Unbounded retention, no snapshots, small segments. -/
def LifecycleConfig.small : LifecycleConfig :=
  ⟨.small, .unbounded, .warn, false⟩

end Batpak.Store
