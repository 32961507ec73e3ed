/-
Module: Batpak.Store.Watermark
Purpose: The frontier watermarks the writer advances and readers observe: accepted,
  written, durable, visible and emitted points, globally and per lane.
Trusted boundary: none
Main exports: WatermarkState, advanceAcceptedOnLane
-/
import Batpak.Store.Types

namespace Batpak.Store

structure LaneWatermarks where
  accepted : HlcPoint
  written : HlcPoint
  durable : HlcPoint
  visible : HlcPoint
  applied : HlcPoint
  emitted : HlcPoint
  deriving Repr, Inhabited, DecidableEq

/-- A lane nothing has been recorded for sits at the origin. -/
def LaneWatermarks.default : LaneWatermarks :=
  ⟨.origin, .origin, .origin, .origin, .origin, .origin⟩

def LaneWatermarks.forBootstrapSplit (durable visible : HlcPoint) : LaneWatermarks :=
  ⟨durable, durable, durable, visible, visible, visible⟩

/-- Global watermarks plus one record per lane. -/
structure WatermarkState where
  accepted : HlcPoint
  written : HlcPoint
  durable : HlcPoint
  visible : HlcPoint
  applied : HlcPoint
  emitted : HlcPoint
  lanes : Nat → LaneWatermarks

namespace WatermarkState

def default : WatermarkState :=
  ⟨.origin, .origin, .origin, .origin, .origin, .origin, fun _ => .default⟩

/-- Change the record of one lane. -/
def onLane (w : WatermarkState) (lane : Nat) (f : LaneWatermarks → LaneWatermarks) :
    WatermarkState :=
  { w with lanes := Function.update w.lanes lane (f (w.lanes lane)) }

def advanceAcceptedOnLane (w : WatermarkState) (lane : Nat) (point : HlcPoint) :
    WatermarkState :=
  let w := if w.accepted.coversSequence point then w else { w with accepted := point }
  w.onLane lane fun l => { l with accepted := l.accepted.maxBySequence point }

def advanceWrittenOnLane (w : WatermarkState) (lane : Nat) (point : HlcPoint) :
    WatermarkState :=
  let w := { w with written := w.written.maxBySequence point }
  w.onLane lane fun l => { l with written := l.written.maxBySequence point }

/-- A lane is as durable as its own written point once the physical point covers it. -/
def advanceLaneDurabilityToPhysical (w : WatermarkState) : WatermarkState :=
  { w with
    lanes := fun lane =>
      let l := w.lanes lane
      if w.durable.coversSequence l.written then
        { l with durable := l.durable.maxBySequence l.written }
      else l }

def advanceDurable (w : WatermarkState) (point : HlcPoint) : WatermarkState :=
  let w := { w with durable := w.durable.maxBySequence point }
  w.advanceLaneDurabilityToPhysical

/-- Every sync advances durability to the *accepted* point. -/
def advanceDurableToAccepted (w : WatermarkState) : WatermarkState :=
  w.advanceDurable w.accepted

def advanceVisibleAndEmitted (w : WatermarkState) (point : HlcPoint) : WatermarkState :=
  { w with
    visible := w.visible.maxBySequence point
    emitted := w.emitted.maxBySequence point }

def advanceVisibleAndEmittedOnLane (w : WatermarkState) (lane : Nat) (point : HlcPoint) :
    WatermarkState :=
  (w.advanceVisibleAndEmitted point).onLane lane fun l =>
    { l with
      visible := l.visible.maxBySequence point
      emitted := l.emitted.maxBySequence point }

/-- Installed once the open has recovered the index and synced the open event. -/
def resetToBootstrapLanes (_ : WatermarkState) (globalDurable globalVisible : HlcPoint)
    (laneDurable laneVisible : Nat → HlcPoint) : WatermarkState where
  accepted := globalDurable
  written := globalDurable
  durable := globalDurable
  visible := globalVisible
  applied := globalVisible
  emitted := globalVisible
  lanes := fun lane =>
    .forBootstrapSplit ((laneDurable lane).maxBySequence (laneVisible lane)) (laneVisible lane)

/-! ### Sequence components of the global points -/

@[simp] theorem onLane_accepted (w : WatermarkState) (lane : Nat) (f) :
    (w.onLane lane f).accepted = w.accepted := rfl

@[simp] theorem onLane_durable (w : WatermarkState) (lane : Nat) (f) :
    (w.onLane lane f).durable = w.durable := rfl

@[simp] theorem advanceAcceptedOnLane_durable (w : WatermarkState) (lane : Nat) (p : HlcPoint) :
    (w.advanceAcceptedOnLane lane p).durable = w.durable := by
  simp only [advanceAcceptedOnLane, onLane_durable]
  split <;> rfl

/-- Acceptance never regresses and covers the accepted point afterwards. -/
theorem advanceAcceptedOnLane_accepted (w : WatermarkState) (lane : Nat) (p : HlcPoint) :
    (w.advanceAcceptedOnLane lane p).accepted.globalSequence =
      Nat.max w.accepted.globalSequence p.globalSequence := by
  simp only [advanceAcceptedOnLane, onLane_accepted, HlcPoint.coversSequence, decide_eq_true_eq]
  split
  · exact (Nat.max_eq_left (by assumption)).symm
  · change p.globalSequence = _
    exact (Nat.max_eq_right (by omega)).symm

@[simp] theorem advanceDurableToAccepted_durable (w : WatermarkState) :
    w.advanceDurableToAccepted.durable.globalSequence =
      Nat.max w.durable.globalSequence w.accepted.globalSequence :=
  HlcPoint.maxBySequence_globalSequence _ _

end WatermarkState

end Batpak.Store
