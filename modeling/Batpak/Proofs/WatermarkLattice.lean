/-
Module: Batpak.Proofs.WatermarkLattice
Purpose: The order of the six watermarks on the global track and on every lane, and what each
  mover needs to keep it.
Trusted boundary: none
Main exports: NotBackwards, FrontierMarks and its movers
-/
import Batpak.Proofs.LaneBounds
import Batpak.Store.Projection

namespace Batpak.Store

/-- The six points of the global track. -/
def WatermarkState.global (w : WatermarkState) : LaneWatermarks :=
  ⟨w.accepted, w.written, w.durable, w.visible, w.applied, w.emitted⟩

/-- The order of one track, by sequence. -/
structure LaneWatermarks.Ordered (t : LaneWatermarks) : Prop where
  written : t.written.globalSequence ≤ t.accepted.globalSequence
  durable : t.durable.globalSequence ≤ t.written.globalSequence
  visible : t.visible.globalSequence ≤ t.accepted.globalSequence
  applied : t.applied.globalSequence ≤ t.visible.globalSequence
  emitted : t.visible.globalSequence ≤ t.emitted.globalSequence

/-- The order of all watermarks of a snapshot. -/
structure Lattice (w : WatermarkState) : Prop where
  global : w.global.Ordered
  lanes : ∀ lane, (w.lanes lane).Ordered
  durable : ∀ lane, (w.lanes lane).durable.globalSequence ≤ w.durable.globalSequence

/-- No point of the track lies below the earlier one. -/
structure LaneWatermarks.AtOrPast (t t' : LaneWatermarks) : Prop where
  accepted : t.accepted.globalSequence ≤ t'.accepted.globalSequence
  written : t.written.globalSequence ≤ t'.written.globalSequence
  durable : t.durable.globalSequence ≤ t'.durable.globalSequence
  visible : t.visible.globalSequence ≤ t'.visible.globalSequence
  applied : t.applied.globalSequence ≤ t'.applied.globalSequence
  emitted : t.emitted.globalSequence ≤ t'.emitted.globalSequence

/-- No watermark has moved backwards. -/
structure NotBackwards (w w' : WatermarkState) : Prop where
  global : w.global.AtOrPast w'.global
  lanes : ∀ lane, (w.lanes lane).AtOrPast (w'.lanes lane)

theorem LaneWatermarks.AtOrPast.refl (t : LaneWatermarks) : t.AtOrPast t :=
  ⟨Nat.le_refl _, Nat.le_refl _, Nat.le_refl _, Nat.le_refl _, Nat.le_refl _, Nat.le_refl _⟩

theorem LaneWatermarks.AtOrPast.trans {t t' t'' : LaneWatermarks} (h : t.AtOrPast t')
    (h' : t'.AtOrPast t'') : t.AtOrPast t'' where
  accepted := Nat.le_trans h.accepted h'.accepted
  written := Nat.le_trans h.written h'.written
  durable := Nat.le_trans h.durable h'.durable
  visible := Nat.le_trans h.visible h'.visible
  applied := Nat.le_trans h.applied h'.applied
  emitted := Nat.le_trans h.emitted h'.emitted

theorem NotBackwards.refl (w : WatermarkState) : NotBackwards w w :=
  ⟨.refl _, fun _ => .refl _⟩

theorem NotBackwards.trans {w w' w'' : WatermarkState} (h : NotBackwards w w')
    (h' : NotBackwards w' w'') : NotBackwards w w'' :=
  ⟨h.global.trans h'.global, fun lane => (h.lanes lane).trans (h'.lanes lane)⟩

/-- The order of one track but for its applied point. -/
structure LaneWatermarks.Tracked (t : LaneWatermarks) : Prop where
  written : t.written.globalSequence ≤ t.accepted.globalSequence
  durable : t.durable.globalSequence ≤ t.written.globalSequence
  visible : t.visible.globalSequence ≤ t.accepted.globalSequence
  emitted : t.visible.globalSequence ≤ t.emitted.globalSequence

/-- What every move of the writer keeps: all of the order but for the applied points and the
durable point of the global track. -/
structure FrontierMarks (w : WatermarkState) : Prop where
  written : w.written.globalSequence ≤ w.accepted.globalSequence
  visible : w.visible.globalSequence ≤ w.accepted.globalSequence
  emitted : w.visible.globalSequence ≤ w.emitted.globalSequence
  lanes : ∀ lane, (w.lanes lane).Tracked
  laneDurable : ∀ lane, (w.lanes lane).durable.globalSequence ≤ w.durable.globalSequence
  laneVisible : ∀ lane, (w.lanes lane).visible.globalSequence ≤ w.visible.globalSequence

/-- The applied points stay behind the visible ones. -/
structure AppliedBehind (w : WatermarkState) : Prop where
  global : w.applied.globalSequence ≤ w.visible.globalSequence
  lanes : ∀ lane, (w.lanes lane).applied.globalSequence ≤ (w.lanes lane).visible.globalSequence

theorem FrontierMarks.lattice {w : WatermarkState} (h : FrontierMarks w)
    (happlied : AppliedBehind w)
    (hdurable : w.durable.globalSequence ≤ w.written.globalSequence) : Lattice w where
  global := ⟨h.written, hdurable, h.visible, happlied.global, h.emitted⟩
  lanes lane :=
    have hl := h.lanes lane
    ⟨hl.written, hl.durable, hl.visible, happlied.lanes lane, hl.emitted⟩
  durable := h.laneDurable

/-! ### The movers -/

namespace HlcPoint

theorem le_maxBySequence_left (p q : HlcPoint) :
    p.globalSequence ≤ (p.maxBySequence q).globalSequence := by
  rw [maxBySequence_globalSequence]
  exact Nat.le_max_left _ _

theorem le_maxBySequence_right (p q : HlcPoint) :
    q.globalSequence ≤ (p.maxBySequence q).globalSequence := by
  rw [maxBySequence_globalSequence]
  exact Nat.le_max_right _ _

theorem maxBySequence_le {p q : HlcPoint} {n : Nat} (hp : p.globalSequence ≤ n)
    (hq : q.globalSequence ≤ n) : (p.maxBySequence q).globalSequence ≤ n := by
  rw [maxBySequence_globalSequence]
  exact Nat.max_le.mpr ⟨hp, hq⟩

end HlcPoint

namespace WatermarkState

theorem onLane_lanes (w : WatermarkState) (lane : Nat) (f : LaneWatermarks → LaneWatermarks)
    (lane' : Nat) :
    (w.onLane lane f).lanes lane' = if lane' = lane then f (w.lanes lane') else w.lanes lane' := by
  unfold onLane
  by_cases h : lane' = lane
  · subst h
    rw [if_pos rfl]
    exact Function.update_self ..
  · rw [if_neg h]
    exact Function.update_of_ne h ..

end WatermarkState

section Movers

variable {w : WatermarkState}

/-- Acceptance as a maximum: whichever of the two points is kept has the higher sequence. -/
theorem advanceAccepted_eq (w : WatermarkState) (lane : Nat) (p : HlcPoint) :
    ∃ point, point.globalSequence = Nat.max w.accepted.globalSequence p.globalSequence ∧
      w.advanceAcceptedOnLane lane p = ({ w with accepted := point } : WatermarkState).onLane lane
        fun l => { l with accepted := l.accepted.maxBySequence p } := by
  unfold WatermarkState.advanceAcceptedOnLane
  by_cases h : w.accepted.coversSequence p = true
  · refine ⟨w.accepted, ?_, ?_⟩
    · exact (Nat.max_eq_left (by simpa [HlcPoint.coversSequence] using h)).symm
    · simp only [h, if_true]
  · refine ⟨p, ?_, ?_⟩
    · have hlt : w.accepted.globalSequence < p.globalSequence := by
        simpa [HlcPoint.coversSequence] using h
      exact (Nat.max_eq_right (Nat.le_of_lt hlt)).symm
    · simp only [h, if_false, Bool.false_eq_true]

theorem NotBackwards.accept (w : WatermarkState) (lane : Nat) (p : HlcPoint) :
    NotBackwards w (w.advanceAcceptedOnLane lane p) := by
  obtain ⟨point, hpoint, heq⟩ := advanceAccepted_eq w lane p
  rw [heq]
  have hle : w.accepted.globalSequence ≤ point.globalSequence := by
    rw [hpoint]
    exact Nat.le_max_left _ _
  refine ⟨{ LaneWatermarks.AtOrPast.refl w.global with accepted := hle }, fun lane' => ?_⟩
  rw [WatermarkState.onLane_lanes]
  split
  · exact { LaneWatermarks.AtOrPast.refl (w.lanes lane') with
      accepted := HlcPoint.le_maxBySequence_left _ _ }
  · exact .refl _

theorem FrontierMarks.accept (h : FrontierMarks w) (lane : Nat) (p : HlcPoint) :
    FrontierMarks (w.advanceAcceptedOnLane lane p) := by
  obtain ⟨point, hpoint, heq⟩ := advanceAccepted_eq w lane p
  rw [heq]
  have hle : w.accepted.globalSequence ≤ point.globalSequence := by
    rw [hpoint]
    exact Nat.le_max_left _ _
  refine {
    written := Nat.le_trans h.written hle
    visible := Nat.le_trans h.visible hle
    emitted := h.emitted
    lanes := fun lane' => ?_
    laneDurable := fun lane' => ?_
    laneVisible := fun lane' => ?_ }
  all_goals rw [WatermarkState.onLane_lanes]; split
  · have hl := h.lanes lane'
    exact { hl with
      written := Nat.le_trans hl.written (HlcPoint.le_maxBySequence_left _ _)
      visible := Nat.le_trans hl.visible (HlcPoint.le_maxBySequence_left _ _) }
  · exact h.lanes lane'
  · exact h.laneDurable lane'
  · exact h.laneDurable lane'
  · exact h.laneVisible lane'
  · exact h.laneVisible lane'

/-- The point has been accepted, globally and on its lane. -/
structure AcceptedAt (w : WatermarkState) (lane sequence : Nat) : Prop where
  global : sequence ≤ w.accepted.globalSequence
  onLane : sequence ≤ (w.lanes lane).accepted.globalSequence

theorem AcceptedAt.mono {w w' : WatermarkState} {lane sequence : Nat}
    (h : AcceptedAt w lane sequence) (hle : NotBackwards w w') : AcceptedAt w' lane sequence where
  global := Nat.le_trans h.global hle.global.accepted
  onLane := Nat.le_trans h.onLane (hle.lanes lane).accepted

theorem acceptedAt_accept (w : WatermarkState) (lane : Nat) (p : HlcPoint) :
    AcceptedAt (w.advanceAcceptedOnLane lane p) lane p.globalSequence := by
  obtain ⟨point, hpoint, heq⟩ := advanceAccepted_eq w lane p
  rw [heq]
  constructor
  · change p.globalSequence ≤ point.globalSequence
    rw [hpoint]
    exact Nat.le_max_right _ _
  · rw [WatermarkState.onLane_lanes, if_pos rfl]
    exact HlcPoint.le_maxBySequence_right _ _

theorem NotBackwards.write (w : WatermarkState) (lane : Nat) (p : HlcPoint) :
    NotBackwards w (w.advanceWrittenOnLane lane p) := by
  unfold WatermarkState.advanceWrittenOnLane
  refine ⟨{ LaneWatermarks.AtOrPast.refl w.global with
    written := HlcPoint.le_maxBySequence_left _ _ }, fun lane' => ?_⟩
  rw [WatermarkState.onLane_lanes]
  split
  · exact { LaneWatermarks.AtOrPast.refl (w.lanes lane') with
      written := HlcPoint.le_maxBySequence_left _ _ }
  · exact .refl _

theorem FrontierMarks.write (h : FrontierMarks w) {lane : Nat} {p : HlcPoint}
    (hp : AcceptedAt w lane p.globalSequence) :
    FrontierMarks (w.advanceWrittenOnLane lane p) := by
  unfold WatermarkState.advanceWrittenOnLane
  refine {
    written := HlcPoint.maxBySequence_le h.written hp.global
    visible := h.visible
    emitted := h.emitted
    lanes := fun lane' => ?_
    laneDurable := fun lane' => ?_
    laneVisible := fun lane' => ?_ }
  all_goals rw [WatermarkState.onLane_lanes]; split
  · rename_i hlane
    subst hlane
    have hl := h.lanes lane'
    exact { hl with
      written := HlcPoint.maxBySequence_le hl.written hp.onLane
      durable := Nat.le_trans hl.durable (HlcPoint.le_maxBySequence_left _ _) }
  · exact h.lanes lane'
  · exact h.laneDurable lane'
  · exact h.laneDurable lane'
  · exact h.laneVisible lane'
  · exact h.laneVisible lane'

theorem NotBackwards.sync (w : WatermarkState) : NotBackwards w w.advanceDurableToAccepted := by
  unfold WatermarkState.advanceDurableToAccepted WatermarkState.advanceDurable
    WatermarkState.advanceLaneDurabilityToPhysical
  refine ⟨{ LaneWatermarks.AtOrPast.refl w.global with
    durable := HlcPoint.le_maxBySequence_left _ _ }, fun lane => ?_⟩
  dsimp only
  split
  · exact { LaneWatermarks.AtOrPast.refl (w.lanes lane) with
      durable := HlcPoint.le_maxBySequence_left _ _ }
  · exact .refl _

theorem FrontierMarks.sync (h : FrontierMarks w) : FrontierMarks w.advanceDurableToAccepted := by
  unfold WatermarkState.advanceDurableToAccepted WatermarkState.advanceDurable
    WatermarkState.advanceLaneDurabilityToPhysical
  refine {
    written := h.written
    visible := h.visible
    emitted := h.emitted
    lanes := fun lane => ?_
    laneDurable := fun lane => ?_
    laneVisible := fun lane => ?_ }
  · have hl := h.lanes lane
    dsimp only
    split
    · exact { hl with durable := HlcPoint.maxBySequence_le hl.durable (Nat.le_refl _) }
    · exact hl
  · have hold : (w.lanes lane).durable.globalSequence ≤
        (w.durable.maxBySequence w.accepted).globalSequence :=
      Nat.le_trans (h.laneDurable lane) (HlcPoint.le_maxBySequence_left _ _)
    dsimp only
    split
    · rename_i hcovers
      exact HlcPoint.maxBySequence_le hold (by simpa [HlcPoint.coversSequence] using hcovers)
    · exact hold
  · dsimp only
    split
    · exact h.laneVisible lane
    · exact h.laneVisible lane

theorem NotBackwards.visible (w : WatermarkState) (p : HlcPoint) :
    NotBackwards w (w.advanceVisibleAndEmitted p) :=
  ⟨{ LaneWatermarks.AtOrPast.refl w.global with
    visible := HlcPoint.le_maxBySequence_left _ _
    emitted := HlcPoint.le_maxBySequence_left _ _ }, fun _ => .refl _⟩

theorem FrontierMarks.visible_global (h : FrontierMarks w) {p : HlcPoint}
    (hp : p.globalSequence ≤ w.accepted.globalSequence) :
    FrontierMarks (w.advanceVisibleAndEmitted p) where
  written := h.written
  visible := HlcPoint.maxBySequence_le h.visible hp
  emitted := HlcPoint.maxBySequence_le
    (Nat.le_trans h.emitted (HlcPoint.le_maxBySequence_left _ _))
    (HlcPoint.le_maxBySequence_right _ _)
  lanes := h.lanes
  laneDurable := h.laneDurable
  laneVisible lane := Nat.le_trans (h.laneVisible lane) (HlcPoint.le_maxBySequence_left _ _)

theorem NotBackwards.visibleOnLane (w : WatermarkState) (lane : Nat) (p : HlcPoint) :
    NotBackwards w (w.advanceVisibleAndEmittedOnLane lane p) := by
  refine (NotBackwards.visible w p).trans ?_
  unfold WatermarkState.advanceVisibleAndEmittedOnLane
  refine ⟨.refl _, fun lane' => ?_⟩
  rw [WatermarkState.onLane_lanes]
  split
  · exact { LaneWatermarks.AtOrPast.refl _ with
      visible := HlcPoint.le_maxBySequence_left _ _
      emitted := HlcPoint.le_maxBySequence_left _ _ }
  · exact .refl _

theorem FrontierMarks.visibleOnLane (h : FrontierMarks w) {lane : Nat} {p : HlcPoint}
    (hp : AcceptedAt w lane p.globalSequence) :
    FrontierMarks (w.advanceVisibleAndEmittedOnLane lane p) := by
  have hglobal := h.visible_global hp.global
  unfold WatermarkState.advanceVisibleAndEmittedOnLane
  refine {
    written := hglobal.written
    visible := hglobal.visible
    emitted := hglobal.emitted
    lanes := fun lane' => ?_
    laneDurable := fun lane' => ?_
    laneVisible := fun lane' => ?_ }
  all_goals rw [WatermarkState.onLane_lanes]; split
  · rename_i hlane
    subst hlane
    have hl := h.lanes lane'
    exact {
      written := hl.written
      durable := hl.durable
      visible := HlcPoint.maxBySequence_le hl.visible hp.onLane
      emitted := HlcPoint.maxBySequence_le
        (Nat.le_trans hl.emitted (HlcPoint.le_maxBySequence_left _ _))
        (HlcPoint.le_maxBySequence_right _ _) }
  · exact h.lanes lane'
  · exact h.laneDurable lane'
  · exact h.laneDurable lane'
  · refine HlcPoint.maxBySequence_le ?_ (HlcPoint.le_maxBySequence_right _ _)
    exact Nat.le_trans (h.laneVisible lane') (HlcPoint.le_maxBySequence_left _ _)
  · exact hglobal.laneVisible lane'

/-! ### Publishing on several lanes -/

/-- The fold of `advanceVisibleOnLanes` over any publish points. -/
def advancePoints (w : WatermarkState) (points : List (Nat × LanePublishPoint)) : WatermarkState :=
  points.foldl (fun w p => w.advanceVisibleAndEmittedOnLane p.1 p.2.frontierPoint) w

theorem NotBackwards.advancePoints (w : WatermarkState) (points : List (Nat × LanePublishPoint)) :
    NotBackwards w (advancePoints w points) := by
  induction points generalizing w with
  | nil => exact .refl w
  | cons p rest ih =>
      exact (NotBackwards.visibleOnLane w p.1 p.2.frontierPoint).trans (ih _)

theorem FrontierMarks.advancePoints (h : FrontierMarks w)
    {points : List (Nat × LanePublishPoint)}
    (hpoints : ∀ p ∈ points, AcceptedAt w p.1 p.2.frontierPoint.globalSequence) :
    FrontierMarks (advancePoints w points) := by
  induction points generalizing w with
  | nil => exact h
  | cons p rest ih =>
      apply ih (h.visibleOnLane (hpoints p List.mem_cons_self))
      intro q hq
      exact (hpoints q (List.mem_cons_of_mem _ hq)).mono (NotBackwards.visibleOnLane w _ _)

theorem advancePoints_visible_le {points : List (Nat × LanePublishPoint)} {bound : Nat}
    (hw : w.visible.globalSequence ≤ bound)
    (hpoints : ∀ p ∈ points, p.2.frontierPoint.globalSequence ≤ bound) :
    (advancePoints w points).visible.globalSequence ≤ bound := by
  induction points generalizing w with
  | nil => exact hw
  | cons p rest ih =>
      apply ih
      · exact HlcPoint.maxBySequence_le hw (hpoints p List.mem_cons_self)
      · exact fun q hq => hpoints q (List.mem_cons_of_mem _ hq)

theorem le_advancePoints_visible {points : List (Nat × LanePublishPoint)}
    {p : Nat × LanePublishPoint} (hp : p ∈ points) :
    p.2.frontierPoint.globalSequence ≤ (advancePoints w points).visible.globalSequence := by
  induction points generalizing w with
  | nil => cases hp
  | cons q rest ih =>
      rcases List.mem_cons.mp hp with rfl | hp
      · have hfirst : p.2.frontierPoint.globalSequence ≤
            (w.advanceVisibleAndEmittedOnLane p.1 p.2.frontierPoint).visible.globalSequence :=
          HlcPoint.le_maxBySequence_right _ _
        have hrest := NotBackwards.advancePoints
          (w.advanceVisibleAndEmittedOnLane p.1 p.2.frontierPoint) rest
        exact Nat.le_trans hfirst hrest.global.visible
      · exact ih hp

theorem advancePoints_lane_of_not_mem {points : List (Nat × LanePublishPoint)} {lane : Nat}
    (h : ∀ p ∈ points, p.1 ≠ lane) : (advancePoints w points).lanes lane = w.lanes lane := by
  induction points generalizing w with
  | nil => rfl
  | cons p rest ih =>
      change (Store.advancePoints (w.advanceVisibleAndEmittedOnLane p.1 p.2.frontierPoint)
        rest).lanes lane = _
      rw [ih fun q hq => h q (List.mem_cons_of_mem _ hq)]
      unfold WatermarkState.advanceVisibleAndEmittedOnLane
      rw [WatermarkState.onLane_lanes, if_neg fun heq => h p List.mem_cons_self heq.symm]
      rfl

theorem advancePoints_lane_of_mem {points : List (Nat × LanePublishPoint)}
    (hnodup : (points.map Prod.fst).Nodup) {p : Nat × LanePublishPoint} (hp : p ∈ points) :
    ((advancePoints w points).lanes p.1).visible.globalSequence =
      Nat.max (w.lanes p.1).visible.globalSequence p.2.frontierPoint.globalSequence := by
  induction points generalizing w with
  | nil => cases hp
  | cons q rest ih =>
      rw [List.map_cons, List.nodup_cons] at hnodup
      change ((Store.advancePoints (w.advanceVisibleAndEmittedOnLane q.1 q.2.frontierPoint)
        rest).lanes p.1).visible.globalSequence = _
      rcases List.mem_cons.mp hp with rfl | hp
      · rw [advancePoints_lane_of_not_mem]
        · unfold WatermarkState.advanceVisibleAndEmittedOnLane
          rw [WatermarkState.onLane_lanes, if_pos rfl]
          exact HlcPoint.maxBySequence_globalSequence _ _
        · intro r hr heq
          exact hnodup.1 (List.mem_map.mpr ⟨r, hr, heq⟩)
      · rw [ih hnodup.2 hp]
        have hne : p.1 ≠ q.1 := by
          intro heq
          exact hnodup.1 (List.mem_map.mpr ⟨p, hp, heq⟩)
        unfold WatermarkState.advanceVisibleAndEmittedOnLane
        rw [WatermarkState.onLane_lanes, if_neg hne]
        rfl

theorem mem_lanePublishPoints {ns : List Notification} {p : Nat × LanePublishPoint}
    (h : p ∈ lanePublishPointsFromNotifications ns) :
    ∃ n ∈ ns, p = (n.lane, ⟨n.sequence + 1, ⟨n.wallMs, n.sequence⟩⟩) := by
  rcases @mem_upsertNotifications [] ns p h with hp | hp
  · cases hp
  · exact hp

theorem lanePublishPoints_nodup (ns : List Notification) :
    ((lanePublishPointsFromNotifications ns).map Prod.fst).Nodup := by
  have h := laneBounds_nodup ns
  rw [laneBounds, List.map_map] at h
  exact h

theorem FrontierMarks.visibleOnLanes (h : FrontierMarks w) {ns : List Notification}
    (hns : ∀ n ∈ ns, AcceptedAt w n.lane n.sequence) :
    FrontierMarks (advanceVisibleOnLanes w ns) := by
  apply h.advancePoints
  intro p hp
  obtain ⟨n, hn, rfl⟩ := mem_lanePublishPoints hp
  exact hns n hn

theorem visibleOnLanes_le {ns : List Notification} {bound : Nat}
    (hw : w.visible.globalSequence ≤ bound) (hns : ∀ n ∈ ns, n.sequence ≤ bound) :
    (advanceVisibleOnLanes w ns).visible.globalSequence ≤ bound := by
  apply advancePoints_visible_le hw
  intro p hp
  obtain ⟨n, hn, rfl⟩ := mem_lanePublishPoints hp
  exact hns n hn

theorem le_visibleOnLanes {ns : List Notification} {n : Notification} (hn : n ∈ ns) :
    n.sequence ≤ (advanceVisibleOnLanes w ns).visible.globalSequence := by
  obtain ⟨p, hp, -, hle⟩ := @upsertNotifications_covers [] ns n hn
  have hpoint : p.2.publishUpTo = p.2.frontierPoint.globalSequence + 1 := by
    obtain ⟨m, -, rfl⟩ := mem_lanePublishPoints hp
    rfl
  rw [hpoint] at hle
  exact Nat.le_trans (Nat.le_of_succ_le_succ hle) (le_advancePoints_visible hp)

/-- A publish moves the bound and the visible point of a lane together: not at all, or to
the highest announced event of the lane. -/
theorem visibleOnLanes_lane (w : WatermarkState) (bounds : Nat → Nat) (ns : List Notification)
    (lane : Nat) :
    (SequenceGate.installLanes bounds (laneBounds ns) lane = bounds lane ∧
        (advanceVisibleOnLanes w ns).lanes lane = w.lanes lane) ∨
      ∃ n ∈ ns, n.lane = lane ∧
        SequenceGate.installLanes bounds (laneBounds ns) lane = n.sequence + 1 ∧
        ((advanceVisibleOnLanes w ns).lanes lane).visible.globalSequence =
          Nat.max (w.lanes lane).visible.globalSequence n.sequence := by
  by_cases h : ∃ p ∈ lanePublishPointsFromNotifications ns, p.1 = lane
  · obtain ⟨p, hp, rfl⟩ := h
    have hvisible := @advancePoints_lane_of_mem w _ (lanePublishPoints_nodup ns) p hp
    have hbound : SequenceGate.installLanes bounds (laneBounds ns) p.1 = p.2.publishUpTo :=
      @SequenceGate.installLanes_of_mem bounds (laneBounds ns) (laneBounds_nodup ns)
        (p.1, p.2.publishUpTo) (List.mem_map.mpr ⟨p, hp, rfl⟩)
    obtain ⟨n, hn, rfl⟩ := mem_lanePublishPoints hp
    exact .inr ⟨n, hn, rfl, hbound, hvisible⟩
  · have hnone : ∀ p ∈ lanePublishPointsFromNotifications ns, p.1 ≠ lane :=
      fun p hp heq => h ⟨p, hp, heq⟩
    refine .inl ⟨?_, advancePoints_lane_of_not_mem hnone⟩
    apply SequenceGate.installLanes_of_not_mem
    intro q hq
    obtain ⟨p, hp, rfl⟩ := List.mem_map.mp hq
    exact hnone p hp

end Movers

end Batpak.Store
