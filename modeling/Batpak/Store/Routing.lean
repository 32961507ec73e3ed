/-
Module: Batpak.Store.Routing
Purpose: The routing summary of a restore: how it is computed, which hints are accepted in its
  place, and the restore run by run.
Trusted boundary: interned entity ids stand one to one for the entities
Main exports: RoutingSummary, fromEntries
-/
import Batpak.Store.Query
import Batpak.Util.Stretches

namespace Batpak.Store

open Batpak.Util

/-! ### Summaries -/

/-- The entries of one entity in the order of the entity, as a stretch. -/
structure EntityRun where
  entity : String
  start : Nat
  len : Nat
  firstSequence : Nat
  lastSequence : Nat
  deriving Repr, Inhabited, DecidableEq

structure RestoreChunkSummary where
  start : Nat
  len : Nat
  firstSequence : Nat
  lastSequence : Nat
  deriving Repr, Inhabited, DecidableEq

structure RoutingSummary where
  entryCount : Nat
  chunkCount : Nat
  chunks : List RestoreChunkSummary
  entityRuns : List EntityRun
  deriving Repr, Inhabited, DecidableEq

/-- A stable sort by entity, then wall clock, logical clock and event id. -/
def sortEntriesByEntity (entries : List IndexEntry) : List IndexEntry :=
  entries.insertionSort fun a b => StoreIndex.entityOrder a b

def EntityRun.single (cursor : Nat) (e : IndexEntry) : EntityRun :=
  ⟨e.coord.entity, cursor, 1, e.globalSequence, e.globalSequence⟩

def EntityRun.extend (run : EntityRun) (e : IndexEntry) : EntityRun :=
  { run with len := run.len + 1, lastSequence := e.globalSequence }

/-- One pass over the entries; a run goes on while the entity is its own. -/
def entityRunsFrom (cursor : Nat) : Option EntityRun → List IndexEntry → List EntityRun
  | open?, [] => open?.toList
  | none, e :: rest => entityRunsFrom (cursor + 1) (some (.single cursor e)) rest
  | some run, e :: rest =>
      if e.coord.entity = run.entity then entityRunsFrom (cursor + 1) (some (run.extend e)) rest
      else run :: entityRunsFrom (cursor + 1) (some (.single cursor e)) rest

/-- The sequence at a position; every position asked for is within the entries. -/
def sequenceAt (entries : List IndexEntry) (i : Nat) : Nat :=
  (entries[i]?.map (·.globalSequence)).getD 0

namespace RoutingSummary

def fromEntries (entriesBySequence entriesByEntity : List IndexEntry) (chunkCount : Nat) :
    RoutingSummary :=
  let chunks := (consecutive 0 (evenLengths entriesBySequence.length (max chunkCount 1))).map
    fun r => ⟨r.1, r.2, sequenceAt entriesBySequence r.1,
      sequenceAt entriesBySequence (r.1 + r.2 - 1)⟩
  { entryCount := entriesByEntity.length
    chunkCount := chunks.length
    chunks := chunks
    entityRuns := entityRunsFrom 0 none entriesByEntity }

def fromSortedEntries (entries : List IndexEntry) (chunkCount : Nat) : RoutingSummary :=
  fromEntries entries (sortEntriesByEntity entries) chunkCount

end RoutingSummary

/-! ### Accepting a hint -/

def usizeMax : Nat := 2 ^ 64 - 1

inductive RoutingValidationError where
  | entryCountMismatch
  | chunkCountMismatch
  | chunkStartOverflow
  | chunkLenOverflow
  | chunkLenZero
  | chunkEndOverflow
  | chunkEndOutOfBounds
  | chunkFirstSequenceMismatch
  | chunkLastSequenceMismatch
  | chunkTotalMismatch
  | entityRunStartOverflow
  | entityRunLenOverflow
  | entityRunLenZero
  | entityRunEndOverflow
  | entityRunEndOutOfBounds
  | entityRunEntityMismatch
  | entityRunFirstSequenceMismatch
  | entityRunLastSequenceMismatch
  | entityRunInternalEntityMismatch
  | entityRunTotalMismatch
  deriving Repr, DecidableEq

def RestoreChunkSummary.check (entriesBySequence : List IndexEntry)
    (chunk : RestoreChunkSummary) : Except RoutingValidationError Unit :=
  if usizeMax < chunk.start then .error .chunkStartOverflow
  else if usizeMax < chunk.len then .error .chunkLenOverflow
  else if usizeMax < chunk.start + chunk.len then .error .chunkEndOverflow
  else if chunk.len = 0 then .error .chunkLenZero
  else if entriesBySequence.length < chunk.start + chunk.len then .error .chunkEndOutOfBounds
  else if sequenceAt entriesBySequence chunk.start ≠ chunk.firstSequence then
    .error .chunkFirstSequenceMismatch
  else if sequenceAt entriesBySequence (chunk.start + chunk.len - 1) ≠ chunk.lastSequence then
    .error .chunkLastSequenceMismatch
  else .ok ()

namespace EntityRun

/-- The run's entries among those in entity order. -/
def slice (run : EntityRun) (entriesByEntity : List IndexEntry) : List IndexEntry :=
  stretch entriesByEntity run.start run.len

def check (entriesByEntity : List IndexEntry) (run : EntityRun) :
    Except RoutingValidationError Unit :=
  let slice := run.slice entriesByEntity
  if usizeMax < run.start then .error .entityRunStartOverflow
  else if usizeMax < run.len then .error .entityRunLenOverflow
  else if usizeMax < run.start + run.len then .error .entityRunEndOverflow
  else if run.len = 0 then .error .entityRunLenZero
  else if entriesByEntity.length < run.start + run.len then .error .entityRunEndOutOfBounds
  else if slice.head?.map (·.coord.entity) ≠ some run.entity ∨
      slice.getLast?.map (·.coord.entity) ≠ some run.entity then
    .error .entityRunEntityMismatch
  else if slice.head?.map (·.globalSequence) ≠ some run.firstSequence then
    .error .entityRunFirstSequenceMismatch
  else if slice.getLast?.map (·.globalSequence) ≠ some run.lastSequence then
    .error .entityRunLastSequenceMismatch
  else if slice.any fun e => e.coord.entity ≠ run.entity then
    .error .entityRunInternalEntityMismatch
  else .ok ()

/-- `usize_range` and the lookup of the slice when the entries are installed. -/
def sliceChecked (entriesByEntity : List IndexEntry) (run : EntityRun) :
    Except StoreError (List IndexEntry) :=
  if usizeMax < run.start then
    .error (.corruptSegment 0 "routing entity-run start exceeds usize")
  else if usizeMax < run.len then
    .error (.corruptSegment 0 "routing entity-run len exceeds usize")
  else if usizeMax < run.start + run.len then
    .error (.corruptSegment 0 "routing entity-run start+len overflows usize")
  else if entriesByEntity.length < run.start + run.len then
    .error (.corruptSegment 0 "routing entity-run range out of bounds for restored entries")
  else .ok (run.slice entriesByEntity)

end EntityRun

/-- Each chunk and each run on its own, and the two totals. -/
def RoutingSummary.validateDetailed (routing : RoutingSummary)
    (entriesBySequence entriesByEntity : List IndexEntry) :
    Except RoutingValidationError Unit := do
  if routing.entryCount ≠ entriesBySequence.length ∨ routing.entryCount ≠ entriesByEntity.length then
    .error .entryCountMismatch
  else if routing.chunkCount ≠ routing.chunks.length then .error .chunkCountMismatch
  else
    routing.chunks.forM (RestoreChunkSummary.check entriesBySequence)
    if (routing.chunks.map (·.len)).sum ≠ entriesBySequence.length then .error .chunkTotalMismatch
    else
      routing.entityRuns.forM (EntityRun.check entriesByEntity)
      if (routing.entityRuns.map (·.len)).sum = entriesByEntity.length then .ok ()
      else .error .entityRunTotalMismatch

/-! ### Chunk ranges -/

/-- One chunk for every 65,536 entries, between one and 32. -/
def recommendedRestoreChunkCount (entryCount : Nat) : Nat :=
  min (max ((entryCount + 65535) / 65536) 1) 32

def evenRanges (entryCount : Nat) : List (Nat × Nat) :=
  consecutive 0 (evenLengths entryCount (recommendedRestoreChunkCount entryCount))

/-- The chunks as ranges, each starting where the one before ended. -/
def chunkRangesFrom (entryCount : Nat) :
    Nat → List RestoreChunkSummary → Option (List (Nat × Nat))
  | expectedStart, [] => if expectedStart = entryCount then some [] else none
  | expectedStart, chunk :: rest =>
      if usizeMax < chunk.start ∨ usizeMax < chunk.len ∨ usizeMax < chunk.start + chunk.len then none
      else if chunk.len = 0 ∨ chunk.start ≠ expectedStart ∨ entryCount < chunk.start + chunk.len then
        none
      else
        (chunkRangesFrom entryCount (chunk.start + chunk.len) rest).map
          fun ranges => (chunk.start, chunk.len) :: ranges

def restoreChunkRanges (entryCount : Nat) (routing : RoutingSummary) : List (Nat × Nat) :=
  if routing.chunks = [] then evenRanges entryCount
  else (chunkRangesFrom entryCount 0 routing.chunks).getD (evenRanges entryCount)

/-! ### The restore -/

structure RestoreBase where
  entriesBySequence : List IndexEntry
  entriesByEntity : List IndexEntry
  routing : RoutingSummary

/-- A hint that does not validate is dropped and the routing computed. -/
def RestoreBase.fromSortedEntries (entries : List IndexEntry) (chunkCount : Nat)
    (routingHint : Option RoutingSummary) : RestoreBase :=
  let byEntity := sortEntriesByEntity entries
  let accepted := routingHint.filter fun routing =>
    (routing.validateDetailed entries byEntity).isOk
  ⟨entries, byEntity, accepted.getD (.fromEntries entries byEntity chunkCount)⟩

/-- The entity a slice is filed under is that of its first entry. -/
def sliceEntity (slice : List IndexEntry) : String :=
  (slice.head?.map (·.coord.entity)).getD ""

/-- One group for every slice that is not empty. -/
def SoAoSInner.fromSlices (slices : List (List IndexEntry)) : SoAoSInner :=
  let slices := slices.filter fun slice => !slice.isEmpty
  { keys := (slices.map sliceEntity).dedup
    groups := storeAll sliceEntity (fun slice => ⟨slice, slice.length, []⟩) slices
    scopeEntities := slices.foldl (fun scopes slice => slice.foldl (fun scopes e =>
      if (e.coord.scope, sliceEntity slice) ∈ scopes then scopes
      else scopes ++ [(e.coord.scope, sliceEntity slice)]) scopes) [] }

/-- Only the entity groups follow the slices; the base maps, the flat arrays and the tiles are
filled in sequence order. -/
def ScanIndex.rebuildFromSlices (s : ScanIndex) (entries : List IndexEntry)
    (slices : List (List IndexEntry)) : ScanIndex :=
  { s.rebuildFromRestoreBase entries with
    entityGroups := s.entityGroups.map fun _ => .fromSlices slices }

/-- The index with its entity streams spelled out, each in clock-key order. -/
structure RoutedIndex where
  index : StoreIndex
  streams : String → Option (List IndexEntry)
  scan : ScanIndex

namespace RoutedIndex

/-- Replace the contents: streams, chain heads and entity groups slice by slice, everything else
in sequence order. -/
def install (ix : RoutedIndex) (entries : List IndexEntry) (allocatorHint : Nat)
    (slices : List (List IndexEntry)) : RoutedIndex :=
  let filed := slices.filter fun slice => !slice.isEmpty
  { index := { ix.index.restoreSortedEntries entries allocatorHint with
      latest := filed.flatten.reverse }
    streams := storeAll sliceEntity (fun slice => clockValues slice.reverse) filed
    scan := ix.scan.rebuildFromSlices entries slices }

def restoreSortedEntriesImpl (ix : RoutedIndex) (entries : List IndexEntry) (allocatorHint : Nat)
    (chunkCount : Nat) (routingHint : Option RoutingSummary) : Except StoreError RoutedIndex := do
  let restored := RestoreBase.fromSortedEntries entries chunkCount routingHint
  let slices ← restored.routing.entityRuns.mapM
    (EntityRun.sliceChecked restored.entriesByEntity)
  .ok (ix.install restored.entriesBySequence allocatorHint slices)

end RoutedIndex

end Batpak.Store
