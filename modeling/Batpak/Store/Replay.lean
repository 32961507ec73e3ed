/-
Module: Batpak.Store.Replay
Purpose: Projecting an entity: the state contract, the full and the incremental replay, change
  detection by generation, and the fused replay.
Trusted boundary: the reader of frames, the serialization of states and the failures of the
  external cache are parameters; freshness is always `Consistent`
Main exports: Projection, validateProjectionState
-/
import Batpak.Store.Overlay

namespace Batpak.Store

/-! ### Projection types -/

inductive ProjectionStateContract where
  | bounded (keySpace : String) (maxCardinality : Nat)
      (retentionPolicy compactionPolicy checkpointPolicy : String)
  | unboundedDeclared (reason owner reviewBy : String)
  | unspecified
  deriving Repr, Inhabited, DecidableEq

inductive StateExtentCost where
  | constantTime
  | incremental
  | expensive
  | checkpointOnly
  | unavailable
  deriving Repr, Inhabited, DecidableEq

structure StateExtent where
  cardinality : Option Nat
  cost : StateExtentCost
  deriving Repr, Inhabited, DecidableEq

/-- A projection type over events `ε` with states `σ`. `encode` fails where serialization
does, `cacheKey` is the key of the external cache for an entity. -/
structure Projection (ε σ : Type) where
  name : String
  typeId : Nat
  relevantEventKinds : List EventKind
  fromEvents : List ε → Option σ
  applyEvent : σ → ε → σ
  supportsIncrementalApply : Bool
  stateContract : ProjectionStateContract
  stateExtent : σ → StateExtent
  encode : σ → Option Bytes
  decode : Bytes → Option σ
  cacheKey : String → Bytes

inductive ProjectionError where
  | store (source : StoreError)
  | stateContractUnspecified (projection : String)
  | stateExtentUnavailable (projection : String) (declared : ProjectionStateContract)
      (actual : StateExtent)
  | stateBoundExceeded (projection : String) (declared : ProjectionStateContract)
      (actual : StateExtent)
  deriving Repr, Inhabited, DecidableEq

variable {ε σ : Type}

/-- Id of a projection of an entity in the registry. -/
def Projection.idFor (p : Projection ε σ) (entity : String) : String :=
  p.name ++ ":" ++ entity

/-- No state counts as an extent of zero. -/
def validateProjectionState (p : Projection ε σ) (entity : String) (value : Option σ) :
    Except ProjectionError Unit :=
  let projection := p.idFor entity
  match p.stateContract with
  | .unspecified => .error (.stateContractUnspecified projection)
  | .unboundedDeclared _ _ _ => .ok ()
  | .bounded _ maxCardinality _ _ _ =>
      let actual : StateExtent := match value with
        | none => ⟨some 0, .constantTime⟩
        | some state => p.stateExtent state
      match actual.cardinality with
      | none => .error (.stateExtentUnavailable projection p.stateContract actual)
      | some cardinality =>
          if actual.cost = .unavailable then
            .error (.stateExtentUnavailable projection p.stateContract actual)
          else if maxCardinality < cardinality then
            .error (.stateBoundExceeded projection p.stateContract actual)
          else .ok ()

/-! ### The store as projections see it -/

/-- A row of the external cache. -/
structure CacheRow where
  bytes : Bytes
  watermark : Nat
  deriving Repr, Inhabited, DecidableEq

/-- `cache` is `none` for the cache that keeps nothing. `read` reads the frame at a
position, `kindOf` is the kind its header carries. -/
structure ProjectionStore (ε : Type) where
  index : OverlaidIndex
  cache : Option (List (Bytes × CacheRow))
  incrementalProjection : Bool
  read : DiskPos → Except StoreError ε
  kindOf : ε → EventKind

/-- What the external cache refuses during a call. -/
structure CacheFaults where
  get : Bool
  put : Bool
  deriving Repr, Inhabited, DecidableEq

namespace ProjectionStore

/-- Read a list of positions; the first failure ends it. -/
def readBatch (st : ProjectionStore ε) (items : List ProjectionReplayItem) :
    Except StoreError (List ε) :=
  items.mapM fun item => st.read item.diskPos

/-- `ProjectionCache::get`; a failed read is a miss. -/
def cacheGet (st : ProjectionStore ε) (faults : CacheFaults) (key : Bytes) : Option CacheRow :=
  if faults.get then none else st.cache.bind fun rows => rows.lookup key

def cachePut (st : ProjectionStore ε) (faults : CacheFaults) (key : Bytes) (row : CacheRow) :
    ProjectionStore ε :=
  if faults.put then st
  else { st with cache := st.cache.map fun rows =>
      (key, row) :: rows.filter fun r => r.1 ≠ key }

end ProjectionStore

/-! ### Projecting -/

open OverlaidIndex (ProjectionReplayPlan)

structure ProjectionOutcome (σ : Type) where
  state : Option σ
  returnedGeneration : Nat
  appliedSequence : Option Nat
  deriving Repr, Inhabited, DecidableEq

section Project

variable (p : Projection ε σ) (faults : CacheFaults) (entity : String)

/-- Write a state back to both caches, unless it does not serialize. -/
def storeProjectionValue (plan : ProjectionReplayPlan) (value : σ) (st : ProjectionStore ε) :
    ProjectionStore ε :=
  match p.encode value with
  | none => st
  | some bytes =>
      let st := st.cachePut faults (p.cacheKey entity) ⟨bytes, plan.watermark⟩
      { st with index := st.index.storeCachedProjection entity p.typeId bytes plan.watermark }

def executeFullReplay (plan : ProjectionReplayPlan) (st : ProjectionStore ε) :
    Except ProjectionError (ProjectionOutcome σ) × ProjectionStore ε :=
  match st.readBatch plan.items with
  | .error e => (.error (.store e), st)
  | .ok events =>
      let result := p.fromEvents events
      match validateProjectionState p entity result with
      | .error e => (.error e, st)
      | .ok () =>
          let st := match result with
            | some value => storeProjectionValue p faults entity plan value st
            | none => st
          (.ok ⟨result, plan.generation, some plan.watermark⟩, st)

/-- Fold the items past the watermark of a cached state onto it. -/
def applyIncrementalEvents (plan : ProjectionReplayPlan) (cachedWatermark : Nat) (cached : σ)
    (st : ProjectionStore ε) : Except StoreError σ :=
  (plan.items.filter fun item => cachedWatermark < item.globalSequence).foldlM
    (fun state item => (st.read item.diskPos).map fun event => p.applyEvent state event) cached

/-- A cached state brought up to the plan, validated and stored back. -/
def finishIncremental (plan : ProjectionReplayPlan) (cachedWatermark : Nat) (cached : σ)
    (st : ProjectionStore ε) :
    Except ProjectionError (ProjectionOutcome σ) × ProjectionStore ε :=
  match applyIncrementalEvents p plan cachedWatermark cached st with
  | .error e => (.error (.store e), st)
  | .ok state =>
      match validateProjectionState p entity (some state) with
      | .error e => (.error e, st)
      | .ok () =>
          (.ok ⟨some state, plan.generation, some plan.watermark⟩,
            storeProjectionValue p faults entity plan state st)

/-- A cached state that is current as it is. -/
def finishHit (generation watermark : Nat) (cached : σ) (st : ProjectionStore ε) :
    Except ProjectionError (ProjectionOutcome σ) × ProjectionStore ε :=
  match validateProjectionState p entity (some cached) with
  | .error e => (.error e, st)
  | .ok () => (.ok ⟨some cached, generation, some watermark⟩, st)

/-- A row of the external cache is fresh when its watermark is the plan's. A fresh row also
warms the group-local slot. -/
def executeExternalCachePath (plan : ProjectionReplayPlan) (st : ProjectionStore ε) :
    Except ProjectionError (ProjectionOutcome σ) × ProjectionStore ε :=
  match st.cacheGet faults (p.cacheKey entity) with
  | none => executeFullReplay p faults entity plan st
  | some row =>
      match p.decode row.bytes with
      | none => executeFullReplay p faults entity plan st
      | some cached =>
          if row.watermark = plan.watermark then
            finishHit p entity plan.generation row.watermark cached
              { st with index :=
                  match validateProjectionState p entity (some cached) with
                  | .error _ => st.index
                  | .ok () =>
                      st.index.storeCachedProjection entity p.typeId row.bytes row.watermark }
          else if row.watermark < plan.watermark ∧ p.supportsIncrementalApply ∧
              st.incrementalProjection then
            finishIncremental p faults entity plan row.watermark cached st
          else executeFullReplay p faults entity plan st

/-- With a group-local slot that is fresh, or stale but usable, the external cache is not
asked; a slot that does not decode falls back to the full replay. -/
def executePlan (plan : ProjectionReplayPlan) (st : ProjectionStore ε) :
    Except ProjectionError (ProjectionOutcome σ) × ProjectionStore ε :=
  let uncached (st : ProjectionStore ε) :=
    if st.cache.isNone then executeFullReplay p faults entity plan st
    else executeExternalCachePath p faults entity plan st
  match st.index.cachedProjection entity p.typeId with
  | none => uncached st
  | some slot =>
      if slot.watermark = plan.watermark ∧ slot.generation = plan.generation then
        match p.decode slot.bytes with
        | some cached => finishHit p entity slot.generation slot.watermark cached st
        | none => executeFullReplay p faults entity plan st
      else if p.supportsIncrementalApply ∧ st.incrementalProjection then
        match p.decode slot.bytes with
        | some cached => finishIncremental p faults entity plan slot.watermark cached st
        | none => executeFullReplay p faults entity plan st
      else uncached st

def projectInner (st : ProjectionStore ε) :
    Except ProjectionError (ProjectionOutcome σ) × ProjectionStore ε :=
  match st.index.projectionReplayPlan entity p.relevantEventKinds with
  | none =>
      match validateProjectionState p entity none with
      | .error e => (.error e, st)
      | .ok () => (.ok ⟨none, (st.index.entityGeneration entity).getD 0, none⟩, st)
  | some plan => executePlan p faults entity plan st

def project (st : ProjectionStore ε) : Except ProjectionError (Option σ) × ProjectionStore ε :=
  let (outcome, st) := projectInner p faults entity st
  (outcome.map (·.state), st)

/-- `none` when the generation is the one the caller has seen. -/
def projectIfChanged (lastSeenGeneration : Nat) (st : ProjectionStore ε) :
    Except ProjectionError (Option (Nat × Option σ)) × ProjectionStore ε :=
  if (st.index.entityGeneration entity).getD 0 = lastSeenGeneration then (.ok none, st)
  else
    let (outcome, st) := projectInner p faults entity st
    (outcome.map fun o => some (o.returnedGeneration, o.state), st)

end Project

/-! ### Fused replay -/

/-- The union of the kinds; every kind when one of the projections takes every kind. -/
def collectRelevantKinds (slices : List (List EventKind)) : List EventKind :=
  if slices.any List.isEmpty then []
  else slices.flatten.foldl (fun kinds kind =>
    if kinds.contains kind then kinds else kinds ++ [kind]) []

/-- The events a projection takes from the shared stream, by the kind each frame carries. -/
def filteredProjectionEvents (p : Projection ε σ) (kindOf : ε → EventKind) (events : List ε) :
    List ε :=
  events.filter fun event => projectionKindMatches p.relevantEventKinds (kindOf event)

/-- Nothing is read from a cache, nothing is written to one, and no state is validated. -/
def projectFused2 {σ₁ σ₂ : Type} (left : Projection ε σ₁) (right : Projection ε σ₂)
    (entity : String) (st : ProjectionStore ε) :
    Except ProjectionError (Option σ₁ × Option σ₂) :=
  let kinds := collectRelevantKinds [left.relevantEventKinds, right.relevantEventKinds]
  match st.index.projectionReplayPlan entity kinds with
  | none => .ok (none, none)
  | some plan =>
      match st.readBatch plan.items with
      | .error e => .error (.store e)
      | .ok events =>
          .ok (left.fromEvents (filteredProjectionEvents left st.kindOf events),
            right.fromEvents (filteredProjectionEvents right st.kindOf events))

def projectFused3 {σ₁ σ₂ σ₃ : Type} (first : Projection ε σ₁) (second : Projection ε σ₂)
    (third : Projection ε σ₃) (entity : String) (st : ProjectionStore ε) :
    Except ProjectionError (Option σ₁ × Option σ₂ × Option σ₃) :=
  let kinds := collectRelevantKinds
    [first.relevantEventKinds, second.relevantEventKinds, third.relevantEventKinds]
  match st.index.projectionReplayPlan entity kinds with
  | none => .ok (none, none, none)
  | some plan =>
      match st.readBatch plan.items with
      | .error e => .error (.store e)
      | .ok events =>
          .ok (first.fromEvents (filteredProjectionEvents first st.kindOf events),
            second.fromEvents (filteredProjectionEvents second st.kindOf events),
            third.fromEvents (filteredProjectionEvents third st.kindOf events))

end Batpak.Store
