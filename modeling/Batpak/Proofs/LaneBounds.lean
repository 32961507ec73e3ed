/-
Module: Batpak.Proofs.LaneBounds
Purpose: The lane bounds a publish derives from its notifications: one bound for each
  notified lane, right above the highest notified sequence of that lane.
Trusted boundary: none
Main exports: mem_laneBounds, lt_installLanes_laneBounds
-/
import Batpak.Store.Writer

namespace Batpak.Store

variable {points : List (Nat × LanePublishPoint)} {notifications : List Notification}

/-! ### Upserting one point -/

/-- One point for each lane, in lane order. -/
def LanesSorted (points : List (Nat × LanePublishPoint)) : Prop :=
  points.Pairwise fun a b => a.1 < b.1

theorem mem_upsertLanePoint {lane : Nat} {p : LanePublishPoint} {q : Nat × LanePublishPoint}
    (h : q ∈ upsertLanePoint lane p points) : q = (lane, p) ∨ q ∈ points := by
  induction points with
  | nil => exact .inl (List.mem_singleton.mp h)
  | cons r rest ih =>
      rw [upsertLanePoint] at h
      split at h
      · rcases List.mem_cons.mp h with rfl | h
        · exact .inl rfl
        · exact .inr h
      · split at h
        · rename_i heq
          rcases List.mem_cons.mp h with rfl | h
          · split
            · exact .inl (by rw [heq])
            · exact .inr List.mem_cons_self
          · exact .inr (List.mem_cons_of_mem _ h)
        · rcases List.mem_cons.mp h with rfl | h
          · exact .inr List.mem_cons_self
          · rcases ih h with h | h
            · exact .inl h
            · exact .inr (List.mem_cons_of_mem _ h)

theorem upsertLanePoint_sorted {lane : Nat} {p : LanePublishPoint} (h : LanesSorted points) :
    LanesSorted (upsertLanePoint lane p points) := by
  induction points with
  | nil => exact List.pairwise_singleton _ _
  | cons r rest ih =>
      obtain ⟨hr, hrest⟩ := List.pairwise_cons.mp h
      rw [upsertLanePoint]
      split
      · rename_i hlt
        refine List.pairwise_cons.mpr ⟨?_, h⟩
        intro q hq
        rcases List.mem_cons.mp hq with rfl | hq
        · exact hlt
        · exact Nat.lt_trans hlt (hr q hq)
      · split
        · exact List.pairwise_cons.mpr ⟨hr, hrest⟩
        · rename_i hnlt hne
          refine List.pairwise_cons.mpr ⟨?_, ih hrest⟩
          intro q hq
          rcases mem_upsertLanePoint hq with rfl | hq
          · change r.1 < lane
            omega
          · exact hr q hq

/-- The lane gets a point at least as high as the new one. -/
theorem upsertLanePoint_covers (lane : Nat) (p : LanePublishPoint)
    (points : List (Nat × LanePublishPoint)) :
    ∃ q ∈ upsertLanePoint lane p points, q.1 = lane ∧ p.publishUpTo ≤ q.2.publishUpTo := by
  induction points with
  | nil => exact ⟨(lane, p), List.mem_singleton_self _, rfl, Nat.le_refl _⟩
  | cons r rest ih =>
      rw [upsertLanePoint]
      split
      · exact ⟨(lane, p), List.mem_cons_self, rfl, Nat.le_refl _⟩
      · split
        · rename_i heq
          refine ⟨_, List.mem_cons_self, heq.symm, ?_⟩
          split
          · exact Nat.le_refl _
          · rename_i hle
            exact Nat.le_of_not_lt hle
        · obtain ⟨q, hq, hlane, hle⟩ := ih
          exact ⟨q, List.mem_cons_of_mem _ hq, hlane, hle⟩

/-- No lane loses its point. -/
theorem upsertLanePoint_keeps (lane : Nat) (p : LanePublishPoint) {r : Nat × LanePublishPoint}
    (hr : r ∈ points) :
    ∃ q ∈ upsertLanePoint lane p points, q.1 = r.1 ∧ r.2.publishUpTo ≤ q.2.publishUpTo := by
  induction points with
  | nil => cases hr
  | cons r' rest ih =>
      rw [upsertLanePoint]
      split
      · exact ⟨r, List.mem_cons_of_mem _ hr, rfl, Nat.le_refl _⟩
      · split
        · rcases List.mem_cons.mp hr with rfl | hr
          · refine ⟨_, List.mem_cons_self, rfl, ?_⟩
            split
            · rename_i hlt
              exact Nat.le_of_lt hlt
            · exact Nat.le_refl _
          · exact ⟨r, List.mem_cons_of_mem _ hr, rfl, Nat.le_refl _⟩
        · rcases List.mem_cons.mp hr with rfl | hr
          · exact ⟨_, List.mem_cons_self, rfl, Nat.le_refl _⟩
          · obtain ⟨q, hq, hlane, hle⟩ := ih hr
            exact ⟨q, List.mem_cons_of_mem _ hq, hlane, hle⟩

/-! ### All notifications -/

/-- The fold of `lanePublishPointsFromNotifications` from any points. -/
def upsertNotifications (points : List (Nat × LanePublishPoint))
    (notifications : List Notification) : List (Nat × LanePublishPoint) :=
  notifications.foldl
    (fun points n => upsertLanePoint n.lane ⟨n.sequence + 1, ⟨n.wallMs, n.sequence⟩⟩ points) points

theorem upsertNotifications_sorted (notifications : List Notification) (h : LanesSorted points) :
    LanesSorted (upsertNotifications points notifications) := by
  induction notifications generalizing points with
  | nil => exact h
  | cons n rest ih => exact ih (upsertLanePoint_sorted h)

theorem mem_upsertNotifications {q : Nat × LanePublishPoint}
    (h : q ∈ upsertNotifications points notifications) :
    q ∈ points ∨ ∃ n ∈ notifications, q = (n.lane, ⟨n.sequence + 1, ⟨n.wallMs, n.sequence⟩⟩) := by
  induction notifications generalizing points with
  | nil => exact .inl h
  | cons n rest ih =>
      rcases ih h with h | ⟨m, hm, hq⟩
      · rcases mem_upsertLanePoint h with h | h
        · exact .inr ⟨n, List.mem_cons_self, h⟩
        · exact .inl h
      · exact .inr ⟨m, List.mem_cons_of_mem _ hm, hq⟩

theorem upsertNotifications_keeps (notifications : List Notification) {r : Nat × LanePublishPoint}
    (hr : r ∈ points) :
    ∃ q ∈ upsertNotifications points notifications,
      q.1 = r.1 ∧ r.2.publishUpTo ≤ q.2.publishUpTo := by
  induction notifications generalizing points r with
  | nil => exact ⟨r, hr, rfl, Nat.le_refl _⟩
  | cons n rest ih =>
      obtain ⟨q, hq, hlane, hle⟩ := upsertLanePoint_keeps n.lane
        ⟨n.sequence + 1, ⟨n.wallMs, n.sequence⟩⟩ hr
      obtain ⟨q', hq', hlane', hle'⟩ := ih hq
      exact ⟨q', hq', hlane'.trans hlane, Nat.le_trans hle hle'⟩

theorem upsertNotifications_covers {n : Notification} (hn : n ∈ notifications) :
    ∃ q ∈ upsertNotifications points notifications,
      q.1 = n.lane ∧ n.sequence + 1 ≤ q.2.publishUpTo := by
  induction notifications generalizing points with
  | nil => cases hn
  | cons m rest ih =>
      rcases List.mem_cons.mp hn with rfl | hn
      · obtain ⟨q, hq, hlane, hle⟩ := upsertLanePoint_covers n.lane
          ⟨n.sequence + 1, ⟨n.wallMs, n.sequence⟩⟩ points
        obtain ⟨q', hq', hlane', hle'⟩ := upsertNotifications_keeps rest hq
        exact ⟨q', hq', hlane'.trans hlane, Nat.le_trans hle hle'⟩
      · exact ih hn

/-! ### Bounds -/

theorem laneBounds_nodup (notifications : List Notification) :
    ((laneBounds notifications).map Prod.fst).Nodup := by
  have hsorted : LanesSorted (upsertNotifications [] notifications) :=
    upsertNotifications_sorted notifications List.Pairwise.nil
  rw [laneBounds, List.map_map, List.Nodup, List.pairwise_map]
  exact hsorted.imp fun h => Nat.ne_of_lt h

/-- Every bound lies right above a notified sequence of its lane. -/
theorem mem_laneBounds {p : Nat × Nat} (h : p ∈ laneBounds notifications) :
    ∃ n ∈ notifications, p = (n.lane, n.sequence + 1) := by
  obtain ⟨q, hq, rfl⟩ := List.mem_map.mp h
  rcases @mem_upsertNotifications [] notifications q hq with hq | ⟨n, hn, rfl⟩
  · cases hq
  · exact ⟨n, hn, rfl⟩

/-- Every notified event lies below the bound of its lane. -/
theorem lt_installLanes_laneBounds (lanes : Nat → Nat) {n : Notification} (hn : n ∈ notifications) :
    n.sequence < SequenceGate.installLanes lanes (laneBounds notifications) n.lane := by
  obtain ⟨q, hq, hlane, hle⟩ := @upsertNotifications_covers [] notifications n hn
  have hmem : (q.1, q.2.publishUpTo) ∈ laneBounds notifications :=
    List.mem_map.mpr ⟨q, hq, rfl⟩
  have hinstalled := SequenceGate.installLanes_of_mem lanes _ (laneBounds_nodup notifications) hmem
  rw [← hlane, hinstalled]
  exact hle

/-- A lane shows its old bound or the one right above a notified sequence. -/
theorem installLanes_laneBounds (lanes : Nat → Nat) (notifications : List Notification)
    (lane : Nat) :
    SequenceGate.installLanes lanes (laneBounds notifications) lane = lanes lane ∨
      ∃ n ∈ notifications, n.lane = lane ∧
        SequenceGate.installLanes lanes (laneBounds notifications) lane = n.sequence + 1 := by
  by_cases h : ∃ p ∈ laneBounds notifications, p.1 = lane
  · obtain ⟨p, hp, rfl⟩ := h
    obtain ⟨n, hn, rfl⟩ := mem_laneBounds hp
    exact .inr ⟨n, hn, rfl,
      SequenceGate.installLanes_of_mem lanes _ (laneBounds_nodup notifications) hp⟩
  · refine .inl (SequenceGate.installLanes_of_not_mem lanes _ lane ?_)
    intro p hp hlane
    exact h ⟨p, hp, hlane⟩

theorem laneViolation_laneBounds {g : SequenceGate}
    (h : ∀ n ∈ notifications, g.laneVisible n.lane ≤ n.sequence ∧ n.sequence < g.allocated) :
    g.laneViolation (laneBounds notifications) = none := by
  have hbounds : ∀ p ∈ laneBounds notifications,
      g.laneVisible p.1 ≤ p.2 ∧ p.2 ≤ g.allocated := by
    intro p hp
    obtain ⟨n, hn, rfl⟩ := mem_laneBounds hp
    obtain ⟨hlow, hhigh⟩ := h n hn
    exact ⟨Nat.le_succ_of_le hlow, hhigh⟩
  generalize laneBounds notifications = bounds at hbounds
  induction bounds with
  | nil => rfl
  | cons p rest ih =>
      obtain ⟨hlow, hhigh⟩ := hbounds p List.mem_cons_self
      have hok : ¬(g.allocated < p.2 ∨ p.2 < g.laneVisible p.1) := by omega
      rw [SequenceGate.laneViolation, if_neg hok]
      exact ih fun q hq => hbounds q (List.mem_cons_of_mem _ hq)

/-- A publish whose bounds lie between what is shown and what is allocated goes through. -/
theorem publishOnLanes_laneBounds {g : SequenceGate} {upTo : Nat} (operation : String)
    (hlow : g.visible ≤ upTo) (hhigh : upTo ≤ g.allocated)
    (h : ∀ n ∈ notifications, g.laneVisible n.lane ≤ n.sequence ∧ n.sequence < g.allocated) :
    g.publishOnLanes upTo (laneBounds notifications) operation =
      .ok { g with
        visible := upTo
        laneVisible := SequenceGate.installLanes g.laneVisible (laneBounds notifications) } := by
  have hok : ¬(g.allocated < upTo ∨ upTo < g.visible) := by omega
  rw [SequenceGate.publishOnLanes, if_neg hok, laneViolation_laneBounds h]

end Batpak.Store
