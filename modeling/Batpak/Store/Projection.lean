/-
Module: Batpak.Store.Projection
Purpose: Projections as far as the frontier sees them: the replay plan and the applied watermarks
  as the minimum over the registered projections.
Trusted boundary: a call of the registry runs uninterrupted by another one
Main exports: StoreIndex.stream, projectionReplayItems
-/
import Batpak.Store.Open

namespace Batpak.Store

/-! ### The replay plan -/

/-- Key of an entry in its entity's stream. -/
def IndexEntry.clockKey (e : IndexEntry) : Nat × Nat × Nat :=
  (e.wallMs, e.clock, e.eventId)

def clockKeyLe (a b : IndexEntry) : Bool :=
  a.wallMs < b.wallMs ||
    (a.wallMs == b.wallMs &&
      (a.clock < b.clock || (a.clock == b.clock && a.eventId ≤ b.eventId)))

/-- The stream of an entity: its entries in key order, the newest one of every key. -/
def StoreIndex.stream (ix : StoreIndex) (entity : String) : List IndexEntry :=
  let entries := ix.inserted.filter fun e => e.coord.entity == entity
  (entries.filter fun e => entries.find? (fun e' => e'.clockKey == e.clockKey) == some e)
    |>.insertionSort fun a b => clockKeyLe a b

/-- No kinds means every kind. -/
def projectionKindMatches (relevantKinds : List EventKind) (kind : EventKind) : Bool :=
  relevantKinds.isEmpty || relevantKinds.contains kind

structure ProjectionReplayItem where
  globalSequence : Nat
  lane : Nat
  point : HlcPoint
  diskPos : DiskPos
  deriving Repr, Inhabited, DecidableEq

def ProjectionReplayItem.fromEntry (e : IndexEntry) : ProjectionReplayItem :=
  ⟨e.globalSequence, e.dagLane, e.point, e.diskPos⟩

/-- What a projection replays: the relevant events of the entity that are visible on their
lane. -/
def projectionReplayItems (ix : StoreIndex) (entity : String) (relevantKinds : List EventKind) :
    List ProjectionReplayItem :=
  ((ix.stream entity).filter fun e =>
    projectionKindMatches relevantKinds e.kind &&
      ix.gate.isVisibleOnLane e.globalSequence e.dagLane).map .fromEntry

/-! ### The registry -/

def HlcPoint.min (p q : HlcPoint) : HlcPoint :=
  if q.lt p then q else p

def HlcPoint.minBySequence (p q : HlcPoint) : HlcPoint :=
  if p.globalSequence < q.globalSequence then p
  else if q.globalSequence < p.globalSequence then q
  else p.min q

/-- Progress per projection, and per projection and lane. -/
structure ProjectionRegistry where
  progress : List (String × HlcPoint)
  laneProgress : List ((String × Nat) × HlcPoint)
  deriving Repr, Inhabited, DecidableEq

def ProjectionRegistry.new : ProjectionRegistry :=
  ⟨[], []⟩

/-- Raise the progress of a key to a point; a new key starts from `base`. -/
def raiseProgress {κ : Type} [DecidableEq κ] (key : κ) (base point : HlcPoint) :
    List (κ × HlcPoint) → List (κ × HlcPoint)
  | [] => [(key, base.maxBySequence point)]
  | (k, p) :: rest =>
      if k = key then (k, p.maxBySequence point) :: rest
      else (k, p) :: raiseProgress key base point rest

/-- The slowest of the given points. -/
def slowest : List HlcPoint → Option HlcPoint
  | [] => none
  | p :: rest => some (rest.foldl HlcPoint.minBySequence p)

namespace WatermarkState

/-- Assigned as it is, without a maximum. -/
def setApplied (w : WatermarkState) (point : HlcPoint) : WatermarkState :=
  { w with applied := point }

def setAppliedOnLane (w : WatermarkState) (lane : Nat) (point : HlcPoint) : WatermarkState :=
  w.onLane lane fun l => { l with applied := point }

end WatermarkState

namespace ProjectionRegistry

/-- The applied watermark is that of the slowest registered projection. -/
def recompute (r : ProjectionRegistry) (w : WatermarkState) : WatermarkState :=
  match slowest (r.progress.map Prod.snd) with
  | some point => w.setApplied point
  | none => w

def recomputeLane (r : ProjectionRegistry) (lane : Nat) (w : WatermarkState) : WatermarkState :=
  match slowest ((r.laneProgress.filter fun p => p.1.2 == lane).map Prod.snd) with
  | some point => w.setAppliedOnLane lane point
  | none => w

/-- One lane of a projection has been applied up to a point. A projection or lane seen for
the first time starts from what is applied already. -/
def notifyAppliedOnLane (projectionId : String) (lane : Nat) (point : HlcPoint)
    (st : ProjectionRegistry × WatermarkState) : ProjectionRegistry × WatermarkState :=
  let (r, w) := st
  let r := {
    progress := raiseProgress projectionId w.applied point r.progress
    laneProgress :=
      raiseProgress (projectionId, lane) (w.lanes lane).applied point r.laneProgress }
  (r, r.recomputeLane lane (r.recompute w))

end ProjectionRegistry

/-- Keep the highest point of a lane, in lane order. -/
def raiseLanePoint (lane : Nat) (p : HlcPoint) : List (Nat × HlcPoint) → List (Nat × HlcPoint)
  | [] => [(lane, p)]
  | (l, q) :: rest =>
      if lane < l then (lane, p) :: (l, q) :: rest
      else if lane = l then (l, q.maxBySequence p) :: rest
      else (l, q) :: raiseLanePoint lane p rest

/-- Report a projection: the highest point of every lane among the replayed items up to the
sequence its state reflects. -/
def notifyProjectionApplied (projectionId : String) (appliedSequence : Nat)
    (items : List ProjectionReplayItem) (st : ProjectionRegistry × WatermarkState) :
    ProjectionRegistry × WatermarkState :=
  let lanes := (items.filter fun item => item.globalSequence ≤ appliedSequence).foldl
    (fun lanes item => raiseLanePoint item.lane item.point lanes) []
  lanes.foldl (fun st p => ProjectionRegistry.notifyAppliedOnLane projectionId p.1 p.2 st) st

end Batpak.Store
