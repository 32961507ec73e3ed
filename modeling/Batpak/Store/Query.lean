/-
Module: Batpak.Store.Query
Purpose: Region queries over the index and its scan overlays, the bounded variant behind a cursor,
  and how inserts, restores and the compaction swap fill the overlays.
Trusted boundary: the order in which a hash map is iterated is a parameter (Walk)
Main exports: Region, QueryHit
-/
import Batpak.Store.Overlay
import Batpak.Util.Selection

namespace Batpak.Store

open Batpak.Util

/-! ### Regions -/

/-- Upper four bits of the kind. -/
def EventKind.category (k : EventKind) : Nat :=
  k.raw >>> 12

def EventKind.isSystem (k : EventKind) : Bool :=
  k.category == 0x0

def EventKind.isEffect (k : EventKind) : Bool :=
  k.category == 0xD

/-- The kinds of the substrate itself. -/
def EventKind.isReserved (k : EventKind) : Bool :=
  k.isSystem || k.isEffect

theorem EventKind.not_marker_of_not_reserved {k : EventKind} (h : k.isReserved = false) :
    k.isBatchMarker = false := by
  cases hmarker : k.isBatchMarker with
  | false => rfl
  | true =>
      rw [isBatchMarker, Bool.or_eq_true, decide_eq_true_eq, decide_eq_true_eq] at hmarker
      rcases hmarker with rfl | rfl
      · exact absurd h (by decide)
      · exact absurd h (by decide)

inductive KindFilter where
  | exact (kind : EventKind)
  | category (category : Nat)
  | any
  deriving Repr, DecidableEq

def KindFilter.accepts : KindFilter → EventKind → Bool
  | .exact k, kind => kind == k
  | .category c, kind => kind.category == c
  | .any, _ => true

/-- Inclusive range of per-entity clocks; an inverted range cannot be built. -/
structure ClockRange where
  start : Nat
  stop : Nat
  ordered : start ≤ stop
  deriving Repr, DecidableEq

structure Region where
  entityPrefix : Option String
  scope : Option String
  fact : Option KindFilter
  clockRange : Option ClockRange
  lane : Option Nat
  deriving Repr, DecidableEq

/-- Exactly the namespace, or nested beneath it at a `:` boundary. -/
def namespacePrefixMatches (namespaceName candidate : String) : Bool :=
  candidate == namespaceName ||
    (namespaceName.toList ++ [':']).isPrefixOf candidate.toList

namespace Region

/-- Matches every event. -/
def all : Region :=
  ⟨none, none, none, none, none⟩

def matchesEntity (r : Region) (entity : String) : Bool :=
  match r.entityPrefix with
  | some namespaceName => namespacePrefixMatches namespaceName entity
  | none => true

def acceptsKind (r : Region) (kind : EventKind) : Bool :=
  match r.fact with
  | some fact => fact.accepts kind
  | none => true

/-- Matching of a live event; the clock range is for index queries only. -/
def matchesEventOnLane (r : Region) (entity scope : String) (kind : EventKind)
    (lane : Option Nat) : Bool :=
  r.matchesEntity entity &&
    (match r.lane with
      | some expected => lane == some expected
      | none => true) &&
    (match r.scope with
      | some expected => scope == expected
      | none => true) &&
    r.acceptsKind kind

def inClockRange (r : Region) (clock : Nat) : Bool :=
  match r.clockRange with
  | some range => range.start ≤ clock && clock ≤ range.stop
  | none => true

/-- Lane visibility when a lane is requested, global visibility otherwise. -/
def shows (r : Region) (visibility : SequenceGate) (sequence dagLane : Nat) : Bool :=
  match r.lane with
  | some lane => dagLane == lane && visibility.isVisibleOnLane sequence lane
  | none => visibility.isVisible sequence

end Region

/-! ### Hits and iteration orders -/

/-- What a query carries of an entry. -/
structure QueryHit where
  eventId : Nat
  globalSequence : Nat
  diskPos : DiskPos
  kind : EventKind
  clock : Nat
  dagLane : Nat
  deriving Repr, Inhabited, DecidableEq

def QueryHit.fromEntry (e : IndexEntry) : QueryHit :=
  ⟨e.eventId, e.globalSequence, e.diskPos, e.kind, e.clock, e.dagLane⟩

/-- The order in which a hash map happens to be iterated. -/
structure Walk where
  order : {α : Type} → List α → List α
  perm : ∀ {α : Type} (l : List α), (order l).Perm l

def Walk.inOrder : Walk :=
  ⟨fun l => l, fun l => .refl l⟩

def sortHits (hits : List QueryHit) : List QueryHit :=
  sortByKey QueryHit.globalSequence hits

/-- The values of an ordered map keyed by clock key, filled newest first: the newest entry
of every key, in key order. -/
def clockValues (entries : List IndexEntry) : List IndexEntry :=
  (entries.filter fun e => entries.find? (fun e' => e'.clockKey == e.clockKey) == some e)
    |>.insertionSort fun a b => clockKeyLe a b

/-! ### Scan overlays -/

/-- The pairs of a scope and an entity that has emitted in it. -/
abbrev ScopeEntities := List (String × String)

namespace ScopeEntities

scoped instance lawfulPairs : LawfulBEq (String × String) := Prod.instLawfulBEq

def note (scopes : ScopeEntities) (entry : IndexEntry) : ScopeEntities :=
  if (entry.coord.scope, entry.coord.entity) ∈ scopes then scopes
  else scopes ++ [(entry.coord.scope, entry.coord.entity)]

def entitySet (scopes : ScopeEntities) (scope : String) : List String :=
  (scopes.filter fun p => p.1 == scope).map Prod.snd

end ScopeEntities

inductive EntryQuery where
  | kind (kind : EventKind)
  | category (category : Nat)
  | scope (scope : String)

/-- Flat arrays in insertion order. -/
structure SoAInner where
  entries : List IndexEntry
  scopeEntities : ScopeEntities

namespace SoAInner

def empty : SoAInner :=
  ⟨[], []⟩

def push (s : SoAInner) (entry : IndexEntry) : SoAInner :=
  ⟨s.entries ++ [entry], s.scopeEntities.note entry⟩

def fromEntries (entries : List IndexEntry) : SoAInner :=
  entries.foldl push empty

def hitsCandidates (s : SoAInner) : EntryQuery → List QueryHit
  | .kind target => (s.entries.filter fun e => e.kind == target).map .fromEntry
  | .category category => (s.entries.filter fun e => e.kind.category == category).map .fromEntry
  | .scope scope =>
      (s.entries.filter fun e => (s.scopeEntities.entitySet scope).contains e.coord.entity).map
        .fromEntry

end SoAInner

/-- Entity groups with the keys of their map. -/
structure SoAoSInner where
  keys : List String
  groups : Groups
  scopeEntities : ScopeEntities

namespace SoAoSInner

def empty : SoAoSInner :=
  ⟨[], fun _ => none, []⟩

def push (s : SoAoSInner) (entry : IndexEntry) : SoAoSInner where
  keys := if entry.coord.entity ∈ s.keys then s.keys else s.keys ++ [entry.coord.entity]
  groups := s.groups.push entry
  scopeEntities := s.scopeEntities.note entry

/-- One group for every run of the entries sorted by entity and clock key. -/
def fromRestoreBase (entries : List IndexEntry) : SoAoSInner :=
  let sorted := entries.insertionSort fun a b => StoreIndex.entityOrder a b
  ⟨(sorted.map fun e => e.coord.entity).dedup, .ofSorted entries,
    sorted.foldl ScopeEntities.note []⟩

def entriesOf (s : SoAoSInner) (entity : String) : List IndexEntry :=
  ((s.groups entity).map (·.entries)).getD []

def hitsCandidates (walk : Walk) (s : SoAoSInner) : EntryQuery → List QueryHit
  | .kind target =>
      ((walk.order s.keys).flatMap fun entity =>
        (s.entriesOf entity).filter fun e => e.kind == target).map .fromEntry
  | .category category =>
      ((walk.order s.keys).flatMap fun entity =>
        (s.entriesOf entity).filter fun e => e.kind.category == category).map .fromEntry
  | .scope scope =>
      ((walk.order (s.scopeEntities.entitySet scope)).flatMap s.entriesOf).map .fromEntry

end SoAoSInner

/-- Tiles of up to 64 entries of one kind, with the open tile of every kind. -/
structure AoSoAInner where
  tiles : List (List IndexEntry)
  openTiles : EventKind → Option Nat
  scopeEntities : ScopeEntities

namespace AoSoAInner

def tileSize : Nat := 64

def empty : AoSoAInner :=
  ⟨[], fun _ => none, []⟩

def isFull (tile : List IndexEntry) : Bool :=
  tileSize ≤ tile.length

def push (s : AoSoAInner) (entry : IndexEntry) : AoSoAInner :=
  let scopes := s.scopeEntities.note entry
  match s.openTiles entry.kind with
  | some idx =>
      let tile := (s.tiles[idx]?.getD []) ++ [entry]
      ⟨s.tiles.set idx tile,
        if isFull tile then Function.update s.openTiles entry.kind none else s.openTiles, scopes⟩
  | none =>
      let tile := [entry]
      ⟨s.tiles ++ [tile],
        if isFull tile then s.openTiles
        else Function.update s.openTiles entry.kind (some s.tiles.length), scopes⟩

def fromEntries (entries : List IndexEntry) : AoSoAInner :=
  entries.foldl push empty

/-- A whole tile is taken or skipped by the kind of its first entry. -/
def queryHitsEntries (s : AoSoAInner) (accepts : EventKind → Bool) : List IndexEntry :=
  s.tiles.flatMap fun tile =>
    match tile.head? with
    | some first => if accepts first.kind then tile else []
    | none => []

def hitsCandidates (s : AoSoAInner) : EntryQuery → List QueryHit
  | .kind target => (s.queryHitsEntries fun k => k == target).map .fromEntry
  | .category category => (s.queryHitsEntries fun k => k.category == category).map .fromEntry
  | .scope scope =>
      (s.tiles.flatMap fun tile => tile.filter fun e =>
        (s.scopeEntities.entitySet scope).contains e.coord.entity).map .fromEntry

end AoSoAInner

structure IndexTopology where
  soa : Bool
  entityGroups : Bool
  tiles64 : Bool
  deriving Repr, DecidableEq

/-- The base maps, always present, and the configured overlays. `byFact` lists the entries
put into the kind map, newest first. -/
structure ScanIndex where
  byFact : List IndexEntry
  scopeEntities : ScopeEntities
  soa : Option SoAInner
  entityGroups : Option SoAoSInner
  tiles64 : Option AoSoAInner

namespace ScanIndex

def forConfig (topology : IndexTopology) : ScanIndex where
  byFact := []
  scopeEntities := []
  soa := if topology.soa then some .empty else none
  entityGroups := if topology.entityGroups then some .empty else none
  tiles64 := if topology.tiles64 then some .empty else none

def insert (s : ScanIndex) (entry : IndexEntry) : ScanIndex where
  byFact := entry :: s.byFact
  scopeEntities := s.scopeEntities.note entry
  soa := s.soa.map fun idx => idx.push entry
  entityGroups := s.entityGroups.map fun idx => idx.push entry
  tiles64 := s.tiles64.map fun idx => idx.push entry

def clear (s : ScanIndex) : ScanIndex where
  byFact := []
  scopeEntities := []
  soa := s.soa.map fun _ => .empty
  entityGroups := s.entityGroups.map fun _ => .empty
  tiles64 := s.tiles64.map fun _ => .empty

def rebuildFromRestoreBase (s : ScanIndex) (entries : List IndexEntry) : ScanIndex where
  byFact := entries.reverse
  scopeEntities := entries.foldl ScopeEntities.note []
  soa := s.soa.map fun _ => .fromEntries entries
  entityGroups := s.entityGroups.map fun _ => .fromRestoreBase entries
  tiles64 := s.tiles64.map fun _ => .fromEntries entries

def queryBaseHitsByKind (s : ScanIndex) (kind : EventKind) : List QueryHit :=
  sortHits ((clockValues (s.byFact.filter fun e => e.kind == kind)).map .fromEntry)

def queryBaseHitsByCategory (walk : Walk) (s : ScanIndex) (category : Nat) : List QueryHit :=
  let kinds := (s.byFact.map (·.kind)).dedup
  let matching := (walk.order kinds).filter fun k => k.category == category
  sortHits ((matching.flatMap fun kind =>
    clockValues (s.byFact.filter fun e => e.kind == kind)).map .fromEntry)

/-- Broad scans prefer the flat arrays, then the tiles, then the entity groups. -/
def queryHitsByKind (walk : Walk) (s : ScanIndex) (kind : EventKind) : List QueryHit :=
  match s.soa, s.tiles64, s.entityGroups with
  | some soa, _, _ => sortHits (soa.hitsCandidates (.kind kind))
  | none, some tiles, _ => sortHits (tiles.hitsCandidates (.kind kind))
  | none, none, some groups => sortHits (groups.hitsCandidates walk (.kind kind))
  | none, none, none => s.queryBaseHitsByKind kind

def queryHitsByCategory (walk : Walk) (s : ScanIndex) (category : Nat) : List QueryHit :=
  match s.soa, s.tiles64, s.entityGroups with
  | some soa, _, _ => sortHits (soa.hitsCandidates (.category category))
  | none, some tiles, _ => sortHits (tiles.hitsCandidates (.category category))
  | none, none, some groups => sortHits (groups.hitsCandidates walk (.category category))
  | none, none, none => s.queryBaseHitsByCategory walk category

/-- Scope scans prefer the entity groups, and the base maps supply nothing. -/
def queryHitsByScope (walk : Walk) (s : ScanIndex) (scope : String) : List QueryHit :=
  match s.entityGroups, s.soa, s.tiles64 with
  | some groups, _, _ => sortHits (groups.hitsCandidates walk (.scope scope))
  | none, some soa, _ => sortHits (soa.hitsCandidates (.scope scope))
  | none, none, some tiles => sortHits (tiles.hitsCandidates (.scope scope))
  | none, none, none => []

end ScanIndex

/-! ### The index with its scan overlays -/

structure ScannedIndex where
  index : StoreIndex
  scan : ScanIndex

namespace ScannedIndex

def new (topology : IndexTopology) (retention : IdempotencyRetention)
    (overflow : OverflowPolicy) : ScannedIndex :=
  ⟨.new retention overflow, .forConfig topology⟩

def insertInner (ix : ScannedIndex) (entry : IndexEntry) : ScannedIndex :=
  ⟨ix.index.insertInner entry, ix.scan.insert entry⟩

/-- Single-event path. -/
def insert (ix : ScannedIndex) (entry : IndexEntry) : ScannedIndex :=
  ⟨ix.index.insert entry, ix.scan.insert entry⟩

def insertBatch (ix : ScannedIndex) (entries : List IndexEntry) : ScannedIndex :=
  entries.foldl insertInner ix

def restoreSortedEntries (ix : ScannedIndex) (entries : List IndexEntry) (allocatorHint : Nat) :
    ScannedIndex :=
  ⟨ix.index.restoreSortedEntries entries allocatorHint, ix.scan.rebuildFromRestoreBase entries⟩

/-- The swap re-inserts into the overlays what the point-lookup map holds. -/
def replaceContentsFromFresh (walk : Walk) (ix : ScannedIndex) (fresh : StoreIndex) :
    ScannedIndex :=
  ⟨ix.index.replaceContentsFromFresh fresh,
    (walk.order fresh.allEntries).foldl ScanIndex.insert ix.scan.clear⟩

/-- A step on the sequence gate alone. -/
def withGate (ix : ScannedIndex) (gate : SequenceGate) : ScannedIndex :=
  { ix with index := { ix.index with gate := gate } }

/-! ### Candidates -/

/-- Entities that have a stream. -/
def entities (ix : ScannedIndex) : List String :=
  (ix.index.inserted.map fun e => e.coord.entity).dedup

def streamHits (ix : ScannedIndex) (entities : List String) (includeEntry : IndexEntry → Bool) :
    List QueryHit :=
  (entities.flatMap fun entity => (ix.index.stream entity).filter includeEntry).map .fromEntry

def streamHitsMatching (walk : Walk) (ix : ScannedIndex) (region : Region)
    (includeEntry : IndexEntry → Bool) : List QueryHit :=
  ix.streamHits ((walk.order ix.entities).filter region.matchesEntity) includeEntry

def allStreamHitsWhere (walk : Walk) (ix : ScannedIndex) (includeEntry : IndexEntry → Bool) :
    List QueryHit :=
  ix.streamHits (walk.order ix.entities) includeEntry

/-- The candidates of the primary axis. Only those that come from the streams are narrowed
by `includeStreamEntry`. -/
def queryCandidateHits (walk : Walk) (ix : ScannedIndex) (region : Region)
    (includeStreamEntry : IndexEntry → Bool) : List QueryHit :=
  match region.entityPrefix, region.scope, region.fact with
  | some _, _, _ => ix.streamHitsMatching walk region includeStreamEntry
  | none, some scope, _ =>
      let scanHits := ix.scan.queryHitsByScope walk scope
      if scanHits.isEmpty then
        ix.streamHits (walk.order (ix.scan.scopeEntities.entitySet scope)) includeStreamEntry
      else scanHits
  | none, none, some (.exact kind) => ix.scan.queryHitsByKind walk kind
  | none, none, some (.category category) => ix.scan.queryHitsByCategory walk category
  | none, none, some .any => ix.allStreamHitsWhere walk includeStreamEntry
  | none, none, none => ix.allStreamHitsWhere walk includeStreamEntry

/-! ### The shared filter -/

/-- Scope revalidation against the point-lookup map. -/
def hitInScope (ix : ScannedIndex) (region : Region) (hit : QueryHit) : Bool :=
  match region.scope with
  | some scope =>
      match ix.index.byId hit.eventId with
      | some entry => entry.coord.scope == scope
      | none => false
  | none => true

def keepsHit (ix : ScannedIndex) (region : Region) (visibility : SequenceGate) (hit : QueryHit) :
    Bool :=
  region.shows visibility hit.globalSequence hit.dagLane && ix.hitInScope region hit &&
    region.acceptsKind hit.kind && region.inClockRange hit.clock

def filterRegionHits (ix : ScannedIndex) (region : Region) (visibility : SequenceGate)
    (hits : List QueryHit) : List QueryHit :=
  hits.filter (ix.keepsHit region visibility)

/-! ### Queries -/

def queryHitsWithVisibility (walk : Walk) (ix : ScannedIndex) (region : Region)
    (visibility : SequenceGate) : List QueryHit :=
  let hits := ix.queryCandidateHits walk region fun _ => true
  sortHits (ix.filterRegionHits region visibility hits)

/-- The visibility is the gate as it stands at the call. -/
def queryHitsWithSnapshot (walk : Walk) (ix : ScannedIndex) (region : Region) :
    List QueryHit × SequenceGate :=
  (ix.queryHitsWithVisibility walk region ix.index.gate, ix.index.gate)

def trimThreshold (limit : Nat) : Nat :=
  min (max (limit * 2) (limit + 1)) (2 ^ 20)

/-- The bounded scan of a region without entity, scope or kind: the buffer is sorted and
truncated whenever it reaches the threshold. -/
def queryAnyHitsAfter (walk : Walk) (ix : ScannedIndex) (region : Region)
    (visibility : SequenceGate) (seqOk : Nat → Bool) (limit : Nat) : List QueryHit :=
  let wanted (e : IndexEntry) : Bool :=
    seqOk e.globalSequence && region.shows visibility e.globalSequence e.dagLane &&
      region.inClockRange e.clock
  scanTrimmed QueryHit.globalSequence limit (trimThreshold limit)
    (ix.allStreamHitsWhere walk wanted)

def queryHitsAfter (walk : Walk) (ix : ScannedIndex) (region : Region) (afterSeq : Nat)
    (started : Bool) (limit : Nat) : List QueryHit :=
  let visibility := ix.index.gate
  let seqOk (sequence : Nat) : Bool := !started || afterSeq < sequence
  if region.entityPrefix = none ∧ region.scope = none ∧ region.fact = some .any then
    ix.queryAnyHitsAfter walk region visibility seqOk limit
  else
    let hits := ix.queryCandidateHits walk region fun e => seqOk e.globalSequence
    let hits := ix.filterRegionHits region visibility hits
    let hits := if started then hits.filter fun h => afterSeq < h.globalSequence else hits
    trim QueryHit.globalSequence limit hits

/-- A hit becomes the entry the point-lookup map has for it now, if that is visible now. A
hit without a backing entry is dropped. -/
def upgradeHit (ix : ScannedIndex) (hit : QueryHit) : Option IndexEntry :=
  (ix.index.byId hit.eventId).filter fun e => ix.index.gate.isVisible e.globalSequence

/-! ### Filling the index -/

inductive ScanStep where
  | insert (entry : IndexEntry)
  | insertBatch (entries : List IndexEntry)
  | restore (entries : List IndexEntry) (allocatorHint : Nat)
  | swap (fresh : StoreIndex) (walk : Walk)
  | gate (gate : SequenceGate)

def scanStep (ix : ScannedIndex) : ScanStep → ScannedIndex
  | .insert entry => ix.insert entry
  | .insertBatch entries => ix.insertBatch entries
  | .restore entries hint => ix.restoreSortedEntries entries hint
  | .swap fresh walk => ix.replaceContentsFromFresh walk fresh
  | .gate gate => ix.withGate gate

/-- What a query is to return: the region, the clock range and visibility, with lane
visibility when a lane is given. -/
def wanted (region : Region) (visibility : SequenceGate) (e : IndexEntry) : Bool :=
  region.matchesEventOnLane e.coord.entity e.coord.scope e.kind (some e.dagLane) &&
    region.inClockRange e.clock && region.shows visibility e.globalSequence e.dagLane

end ScannedIndex

end Batpak.Store
