/-
Module: Batpak.Store.Overlay
Purpose: The index together with its entity-group overlay, the entity generation, and the replay
  plan taken from either.
Trusted boundary: the order in which the swap walks the point-lookup map is a parameter
Main exports: EntityGroup, OverlaidIndex
-/
import Batpak.Store.Projection

namespace Batpak.Store

/-! ### Entity groups -/

structure CachedProjectionSlot where
  bytes : Bytes
  watermark : Nat
  generation : Nat
  deriving Repr, Inhabited, DecidableEq

/-- The events of one entity in the order in which they were pushed. The parallel array of
kinds is the kinds of the entries. -/
structure EntityGroup where
  entries : List IndexEntry
  generation : Nat
  cachedProjections : List (Nat × CachedProjectionSlot)
  deriving Repr, Inhabited, DecidableEq

namespace EntityGroup

def empty : EntityGroup :=
  ⟨[], 0, []⟩

def push (g : EntityGroup) (entry : IndexEntry) : EntityGroup :=
  { g with entries := g.entries ++ [entry], generation := g.generation + 1 }

/-- The entries of the relevant kinds, with the sequence of the last one as watermark. A
hit is kept as the entry it was made from. -/
def projectionCandidates (g : EntityGroup) (relevantKinds : List EventKind) :
    Option (Nat × Nat × List IndexEntry) :=
  let candidates := g.entries.filter fun e => projectionKindMatches relevantKinds e.kind
  candidates.getLast?.map fun e => (e.globalSequence, g.generation, candidates)

def cachedProjection (g : EntityGroup) (typeId : Nat) : Option CachedProjectionSlot :=
  g.cachedProjections.lookup typeId

/-- The slot is stamped with the generation of the group at that moment. -/
def storeCachedProjection (g : EntityGroup) (typeId : Nat) (bytes : Bytes) (watermark : Nat) :
    EntityGroup :=
  { g with cachedProjections := (typeId, ⟨bytes, watermark, g.generation⟩) ::
      g.cachedProjections.filter fun slot => slot.1 ≠ typeId }

end EntityGroup

abbrev Groups := String → Option EntityGroup

namespace Groups

def push (groups : Groups) (entry : IndexEntry) : Groups :=
  Function.update groups entry.coord.entity
    (some (((groups entry.coord.entity).getD .empty).push entry))

/-- The groups of a restore: the runs of the entries sorted by entity and clock key. -/
def ofSorted (entries : List IndexEntry) : Groups := fun entity =>
  let run := (entries.insertionSort fun a b => StoreIndex.entityOrder a b).filter
    fun e => e.coord.entity == entity
  if run.isEmpty then none else some ⟨run, run.length, []⟩

end Groups

/-! ### The index with its overlay -/

/-- `groups` is `none` for a topology without entity groups. -/
structure OverlaidIndex where
  index : StoreIndex
  groups : Option Groups

namespace OverlaidIndex

def groupOf (ix : OverlaidIndex) (entity : String) : Option EntityGroup :=
  ix.groups.bind fun groups => groups entity

def insertInner (ix : OverlaidIndex) (entry : IndexEntry) : OverlaidIndex :=
  ⟨ix.index.insertInner entry, ix.groups.map fun groups => groups.push entry⟩

/-- Single-event path. -/
def insert (ix : OverlaidIndex) (entry : IndexEntry) : OverlaidIndex :=
  { ix.insertInner entry with index := ix.index.insert entry }

def restoreSortedEntries (ix : OverlaidIndex) (entries : List IndexEntry) (allocatorHint : Nat) :
    OverlaidIndex :=
  ⟨ix.index.restoreSortedEntries entries allocatorHint, ix.groups.map fun _ => .ofSorted entries⟩

/-- The swap re-inserts the adopted entries into the overlay in the order in which it walks
the point-lookup map. -/
def replaceContentsFromFresh (ix : OverlaidIndex) (fresh : StoreIndex) (walk : List IndexEntry) :
    OverlaidIndex :=
  ⟨ix.index.replaceContentsFromFresh fresh,
    ix.groups.map fun _ => walk.foldl Groups.push fun _ => none⟩

/-- A step on the sequence gate alone: publishing, and beginning, noting, finishing or
cancelling a fence. -/
def withGate (ix : OverlaidIndex) (gate : SequenceGate) : OverlaidIndex :=
  { ix with index := { ix.index with gate := gate } }

/-! ### Generation and replay plan -/

def entityGeneration (ix : OverlaidIndex) (entity : String) : Option Nat :=
  match ix.groupOf entity with
  | some group => some group.generation
  | none =>
      let stream := ix.index.stream entity
      if stream.isEmpty then none else some stream.length

/-- Visibility as the readers of a projection have it: global and on the lane. -/
def upgradeHitVisibleOnLane (ix : OverlaidIndex) (hit : IndexEntry) : Option IndexEntry :=
  (ix.index.byId hit.eventId).filter fun e =>
    ix.index.gate.isVisible e.globalSequence &&
      ix.index.gate.isVisibleOnLane e.globalSequence e.dagLane

structure ProjectionReplayPlan where
  watermark : Nat
  generation : Nat
  items : List ProjectionReplayItem
  deriving Repr, Inhabited, DecidableEq

/-- The stream fallback: the watermark is the last relevant entry in clock-key order, hidden
or not. -/
def streamReplayPlan (ix : StoreIndex) (entity : String) (relevantKinds : List EventKind) :
    Option ProjectionReplayPlan :=
  let stream := ix.stream entity
  let relevant := stream.filter fun e => projectionKindMatches relevantKinds e.kind
  relevant.getLast?.map fun e =>
    ⟨e.globalSequence, stream.length, (relevant.filter fun e =>
      ix.gate.isVisibleOnLane e.globalSequence e.dagLane).map .fromEntry⟩

def projectionReplayPlan (ix : OverlaidIndex) (entity : String) (relevantKinds : List EventKind) :
    Option ProjectionReplayPlan :=
  match (ix.groupOf entity).bind fun group => group.projectionCandidates relevantKinds with
  | some (watermark, generation, hits) =>
      some ⟨watermark, generation, (hits.filterMap ix.upgradeHitVisibleOnLane).map .fromEntry⟩
  | none => streamReplayPlan ix.index entity relevantKinds

def cachedProjection (ix : OverlaidIndex) (entity : String) (typeId : Nat) :
    Option CachedProjectionSlot :=
  (ix.groupOf entity).bind fun group => group.cachedProjection typeId

/-- Without entity groups, or without a group of the entity, nothing is kept. -/
def storeCachedProjection (ix : OverlaidIndex) (entity : String) (typeId : Nat) (bytes : Bytes)
    (watermark : Nat) : OverlaidIndex :=
  let store (groups : Groups) : Groups :=
    Function.update groups entity
      ((groups entity).map fun group => group.storeCachedProjection typeId bytes watermark)
  { ix with groups := ix.groups.map store }

/-! ### Filling the index -/

/-- What can happen to the index. A batch inserts its entries one after another. -/
inductive IndexStep where
  | insert (entry : IndexEntry)
  | batchEntry (entry : IndexEntry)
  | restore (entries : List IndexEntry) (allocatorHint : Nat)
  | swap (fresh : StoreIndex) (walk : List IndexEntry)
  | gate (gate : SequenceGate)

def indexStep (ix : OverlaidIndex) : IndexStep → OverlaidIndex
  | .insert entry => ix.insert entry
  | .batchEntry entry => ix.insertInner entry
  | .restore entries hint => ix.restoreSortedEntries entries hint
  | .swap fresh walk => ix.replaceContentsFromFresh fresh walk
  | .gate gate => ix.withGate gate

/-- An empty index, with entity groups or without. -/
def new (entityGroups : Bool) (retention : IdempotencyRetention) (overflow : OverflowPolicy) :
    OverlaidIndex :=
  ⟨.new retention overflow, if entityGroups then some fun _ => none else none⟩

/-- What a projection over the given kinds replays for an entity. -/
def replayItems (ix : OverlaidIndex) (entity : String) (relevantKinds : List EventKind) :
    List ProjectionReplayItem :=
  ((ix.projectionReplayPlan entity relevantKinds).map (·.items)).getD []

end OverlaidIndex

end Batpak.Store
