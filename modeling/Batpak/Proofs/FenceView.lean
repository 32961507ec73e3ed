/-
Module: Batpak.Proofs.FenceView
Purpose: What decides who can see an event; the abstract moves of that view keep every entry
  released, held or cancelled.
Trusted boundary: none
Main exports: Gated.commit, Gated.cancel
-/
import Batpak.Proofs.LaneBounds

namespace Batpak.Store

open Batpak.Util

variable {v : FenceView} {e : IndexEntry} {floor : Nat}

/-- The fence an event was written under. -/
def fenceOf (p : Option Provenance) : Option Nat :=
  p.bind (·.fence)

/-- The part of the ledger that publication depends on. -/
structure LedgerView where
  token : Nat
  publishUpTo : Option Nat
  notifications : List Notification
  identity : Nat

structure FenceView where
  entries : List IndexEntry
  gate : SequenceGate
  ledger : Option LedgerView
  stored : Option CancelledVisibilityRanges
  count : Nat
  committed : List Nat

def FenceLedger.view (fence : FenceLedger) : LedgerView :=
  ⟨fence.token, fence.publishUpTo, fence.notifications, fence.identity⟩

def WriterCore.fenceView (s : WriterCore) : FenceView where
  entries := s.index.inserted
  gate := s.index.gate
  ledger := s.fenceLedger.map FenceLedger.view
  stored := s.hiddenRanges
  count := s.fenceCount
  committed := s.committedFences

namespace FenceView

/-- Written under the fence that is open now. -/
def Pending (v : FenceView) (e : IndexEntry) : Prop :=
  ∃ L, v.ledger = some L ∧ fenceOf e.provenance = some L.identity

/-- No fence is open, or the open one has staged nothing. -/
def Empty (v : FenceView) : Prop :=
  ∀ L, v.ledger = some L → L.publishUpTo = none

end FenceView

/-- Below the global bound and below the bound of its lane. -/
def Released (g : SequenceGate) (e : IndexEntry) : Prop :=
  e.globalSequence < g.visible ∧ e.globalSequence < g.laneVisible e.dagLane

/-- In a cancelled range. -/
def Cancelled (g : SequenceGate) (e : IndexEntry) : Prop :=
  rangeContains g.cancelledRanges e.globalSequence = true

/-- What is cancelled on a lane is cancelled globally. -/
def LanesWithin (ranges : CancelledVisibilityRanges) : Prop :=
  ∀ lane x, rangeContains (ranges.lanes lane) x = true → rangeContains ranges.global x = true

/-- An event of the open fence: in the hull, in the ledger and announced. -/
structure InFence (g : SequenceGate) (L : LedgerView) (floor : Nat) (e : IndexEntry) : Prop where
  above : floor ≤ e.globalSequence
  hullStart : ∃ a, g.activeFenceStart = some a ∧ a ≤ e.globalSequence
  hullEnd : e.globalSequence < g.activeFenceEnd
  published : ∃ u, L.publishUpTo = some u ∧ e.globalSequence < u
  notified : ∃ n ∈ L.notifications, n.lane = e.dagLane ∧ n.sequence = e.globalSequence

/-- While a fence is open nothing is published: `floor` is the allocator at its beginning,
and it separates the fence's events from all others. -/
structure OpenFence (v : FenceView) (L : LedgerView) (floor : Nat) : Prop where
  token : v.gate.activeFence = L.token
  active : L.token ≠ 0
  identity : L.identity < v.count
  uncommitted : L.identity ∉ v.committed
  visible : v.gate.visible ≤ floor
  laneVisible : ∀ lane, v.gate.laneVisible lane ≤ floor
  allocated : floor ≤ v.gate.allocated
  older : ∀ e ∈ v.entries, fenceOf e.provenance ≠ some L.identity → e.globalSequence < floor
  held : ∀ e ∈ v.entries, fenceOf e.provenance = some L.identity → InFence v.gate L floor e
  hullStart : ∀ a, v.gate.activeFenceStart = some a → floor ≤ a
  hullEnd : v.gate.activeFenceEnd ≤ v.gate.allocated
  publish : ∀ u, L.publishUpTo = some u → floor ≤ u ∧ u ≤ v.gate.allocated
  notified : ∀ n ∈ L.notifications, floor ≤ n.sequence ∧ n.sequence < v.gate.allocated
  empty : L.publishUpTo = none →
    v.gate.activeFenceStart = none ∧ v.gate.activeFenceEnd = 0 ∧ L.notifications = []

/-- Every entry is held by the open fence, released on both tracks, or cancelled. -/
structure Gated (v : FenceView) : Prop where
  below : ∀ e ∈ v.entries, e.globalSequence < v.gate.allocated
  visible : v.gate.visible ≤ v.gate.allocated
  laneVisible : ∀ lane, v.gate.laneVisible lane ≤ v.gate.allocated
  lanes : LanesWithin v.gate.cancelledRangesSnapshot
  stored : ∀ ranges, v.stored = some ranges → LanesWithin ranges
  identities : ∀ e ∈ v.entries, ∀ f, fenceOf e.provenance = some f → f < v.count
  committed : ∀ f ∈ v.committed, f < v.count
  settled : ∀ e ∈ v.entries, ¬v.Pending e → Released v.gate e ∨ Cancelled v.gate e
  idle : v.ledger = none → v.gate.activeFenceStart = none ∧ v.gate.activeFenceEnd = 0
  fence : ∀ L, v.ledger = some L → ∃ floor, OpenFence v L floor

/-! ### What the invariants say about visibility -/

/-- A released entry that is not cancelled is shown on both tracks. -/
theorem Gated.shown (h : Gated v) (hreleased : Released v.gate e) (hkept : ¬Cancelled v.gate e) :
    v.gate.isVisible e.globalSequence = true ∧
      v.gate.isVisibleOnLane e.globalSequence e.dagLane = true := by
  have hglobal : rangeContains v.gate.cancelledRanges e.globalSequence = false :=
    Bool.eq_false_iff.mpr hkept
  have hlane : rangeContains (v.gate.laneCancelledRanges e.dagLane) e.globalSequence = false :=
    Bool.eq_false_iff.mpr fun hc => hkept (h.lanes e.dagLane e.globalSequence hc)
  simp [SequenceGate.isVisible, SequenceGate.isVisibleOnLane, hglobal, hlane, hreleased.1,
    hreleased.2]

/-- A cancelled entry is shown on neither track. -/
theorem not_shown_of_cancelled {g : SequenceGate} (h : Cancelled g e) :
    g.isVisible e.globalSequence = false ∧
      g.isVisibleOnLane e.globalSequence e.dagLane = false := by
  unfold Cancelled at h
  simp [SequenceGate.isVisible, SequenceGate.isVisibleOnLane, h]

/-- A held entry is shown on neither track. -/
theorem Gated.not_shown_of_pending (h : Gated v) (he : e ∈ v.entries) (hpending : v.Pending e) :
    v.gate.isVisible e.globalSequence = false ∧
      v.gate.isVisibleOnLane e.globalSequence e.dagLane = false := by
  obtain ⟨L, hL, hfence⟩ := hpending
  obtain ⟨floor, hopen⟩ := h.fence L hL
  have habove := (hopen.held e he hfence).above
  have hglobal : ¬e.globalSequence < v.gate.visible :=
    Nat.not_lt.mpr (Nat.le_trans hopen.visible habove)
  have hlane : ¬e.globalSequence < v.gate.laneVisible e.dagLane :=
    Nat.not_lt.mpr (Nat.le_trans (hopen.laneVisible e.dagLane) habove)
  simp [SequenceGate.isVisible, SequenceGate.isVisibleOnLane, hglobal, hlane]

/-! ### Reserving sequences and beginning a fence -/

namespace FenceView

def reserve (n : Nat) (v : FenceView) : FenceView :=
  { v with gate := v.gate.reserve n }

/-- A fence opens on the token the gate holds. -/
def openFence (token : Nat) (v : FenceView) : FenceView :=
  { v with ledger := some ⟨token, none, [], v.count⟩, count := v.count + 1 }

def callerBegin (v : FenceView) : FenceView :=
  { v with gate := v.gate.beginFence.2 }

end FenceView

theorem Gated.reserve (h : Gated v) (n : Nat) : Gated (v.reserve n) where
  below e he := Nat.lt_of_lt_of_le (h.below e he) (Nat.le_add_right _ _)
  visible := Nat.le_trans h.visible (Nat.le_add_right _ _)
  laneVisible lane := Nat.le_trans (h.laneVisible lane) (Nat.le_add_right _ _)
  lanes := h.lanes
  stored := h.stored
  identities := h.identities
  committed := h.committed
  settled := h.settled
  idle := h.idle
  fence L hL := by
    obtain ⟨floor, hopen⟩ := h.fence L hL
    have hle : v.gate.allocated ≤ (v.reserve n).gate.allocated := Nat.le_add_right _ _
    refine ⟨floor, ?_⟩
    exact {
      token := hopen.token
      active := hopen.active
      identity := hopen.identity
      uncommitted := hopen.uncommitted
      visible := hopen.visible
      laneVisible := hopen.laneVisible
      allocated := Nat.le_trans hopen.allocated hle
      older := hopen.older
      held := fun e he hfence => { hopen.held e he hfence with }
      hullStart := hopen.hullStart
      hullEnd := Nat.le_trans hopen.hullEnd hle
      publish := fun u hu => ⟨(hopen.publish u hu).1, Nat.le_trans (hopen.publish u hu).2 hle⟩
      notified := fun m hm =>
        ⟨(hopen.notified m hm).1, Nat.lt_of_lt_of_le (hopen.notified m hm).2 hle⟩
      empty := hopen.empty }

theorem not_pending_of_idle (hidle : v.ledger = none) (e : IndexEntry) :
    ¬v.Pending e := by
  rintro ⟨L, hL, -⟩
  rw [hidle] at hL
  cases hL

theorem Gated.openFence (h : Gated v) {token : Nat} (hidle : v.ledger = none)
    (htoken : v.gate.activeFence = token) (hactive : token ≠ 0) : Gated (v.openFence token) where
  below := h.below
  visible := h.visible
  laneVisible := h.laneVisible
  lanes := h.lanes
  stored := h.stored
  identities e he f hf := Nat.lt_succ_of_lt (h.identities e he f hf)
  committed f hf := Nat.lt_succ_of_lt (h.committed f hf)
  settled e he _ := h.settled e he (not_pending_of_idle hidle e)
  idle hnone := by cases hnone
  fence L hL := by
    cases hL
    refine ⟨v.gate.allocated, ?_⟩
    exact {
      token := htoken
      active := hactive
      identity := Nat.lt_succ_self _
      uncommitted := fun hc => absurd (h.committed _ hc) (Nat.lt_irrefl _)
      visible := h.visible
      laneVisible := h.laneVisible
      allocated := Nat.le_refl _
      older := fun e he _ => h.below e he
      held := fun e he hfence => absurd (h.identities e he _ hfence) (Nat.lt_irrefl _)
      hullStart := fun a ha => by
        rw [show (v.openFence token).gate.activeFenceStart = none from (h.idle hidle).1] at ha
        cases ha
      hullEnd := by
        rw [show (v.openFence token).gate.activeFenceEnd = 0 from (h.idle hidle).2]
        exact Nat.zero_le _
      publish := fun u hu => by cases hu
      notified := fun n hn => by cases hn
      empty := fun _ => ⟨(h.idle hidle).1, (h.idle hidle).2, rfl⟩ }

/-- A ledger is open only while the gate holds its token. -/
theorem Gated.idle_of_inactive (h : Gated v) (hactive : v.gate.activeFence = 0) :
    v.ledger = none := by
  cases hL : v.ledger with
  | none => rfl
  | some L =>
      obtain ⟨floor, hopen⟩ := h.fence L hL
      exact absurd (hopen.token.symm.trans hactive) hopen.active

theorem Gated.callerBegin (h : Gated v) : Gated v.callerBegin := by
  unfold FenceView.callerBegin SequenceGate.beginFence
  dsimp only
  split
  · rename_i hactive
    have hidle : v.ledger = none := h.idle_of_inactive hactive
    exact { h with
      settled := h.settled
      idle := fun _ => ⟨rfl, rfl⟩
      fence := fun L hL => by
        rw [show v.ledger = some L from hL] at hidle
        cases hidle }
  · exact { h with
      settled := h.settled
      fence := fun L hL => by
        obtain ⟨floor, hopen⟩ := h.fence L hL
        exact ⟨floor, { hopen with held := fun e he hfence => { hopen.held e he hfence with } }⟩ }

/-! ### New events -/

/-- Events that took the next `n` sequences, and what is announced about them. -/
structure NewEvents (new : List IndexEntry) (notifications : List Notification) (first n : Nat)
    (fence : Option Nat) : Prop where
  sequences : ∀ e ∈ new, first ≤ e.globalSequence ∧ e.globalSequence < first + n
  fences : ∀ e ∈ new, fenceOf e.provenance = fence
  notified : ∀ e ∈ new, ∃ m ∈ notifications, m.lane = e.dagLane ∧ m.sequence = e.globalSequence
  announced : ∀ m ∈ notifications, first ≤ m.sequence ∧ m.sequence < first + n

namespace FenceView

/-- New events are published up to the allocator. -/
def release (new : List IndexEntry) (n : Nat) (notifications : List Notification)
    (v : FenceView) : FenceView :=
  { v with
    entries := new ++ v.entries
    gate := { v.gate.reserve n with
      visible := v.gate.allocated + n
      laneVisible := SequenceGate.installLanes v.gate.laneVisible (laneBounds notifications) } }

/-- New events join the open fence. -/
def stage (new : List IndexEntry) (n : Nat) (notifications : List Notification)
    (L : LedgerView) (v : FenceView) : FenceView :=
  { v with
    entries := new ++ v.entries
    gate := { v.gate.reserve n with
      activeFenceStart := some (match v.gate.activeFenceStart with
        | some current => min current v.gate.allocated
        | none => v.gate.allocated)
      activeFenceEnd := max v.gate.activeFenceEnd (v.gate.allocated + n) }
    ledger := some { L with
      publishUpTo := some (max (L.publishUpTo.getD 0) (v.gate.allocated + n))
      notifications := L.notifications ++ notifications } }

end FenceView

section NewEvents

variable {v : FenceView} {new : List IndexEntry} {n : Nat} {notifications : List Notification}

theorem laneVisible_le_install (h : Gated v)
    (hannounced : ∀ m ∈ notifications, v.gate.allocated ≤ m.sequence) (lane : Nat) :
    v.gate.laneVisible lane ≤
      SequenceGate.installLanes v.gate.laneVisible (laneBounds notifications) lane := by
  rcases installLanes_laneBounds v.gate.laneVisible notifications lane with heq | ⟨m, hm, -, heq⟩
  · rw [heq]
  · rw [heq]
    have hle := Nat.le_trans (h.laneVisible lane) (hannounced m hm)
    exact Nat.le_succ_of_le hle

/-- An open fence without staged events owns no entry. -/
theorem Gated.not_pending_of_empty (h : Gated v) (hempty : v.Empty) (he : e ∈ v.entries) :
    ¬v.Pending e := by
  rintro ⟨L, hL, hfence⟩
  obtain ⟨floor, hopen⟩ := h.fence L hL
  obtain ⟨u, hu, -⟩ := (hopen.held e he hfence).published
  rw [hempty L hL] at hu
  cases hu

theorem laneVisible_release_le (h : Gated v)
    (hannounced : ∀ m ∈ notifications, m.sequence < v.gate.allocated + n) (lane : Nat) :
    SequenceGate.installLanes v.gate.laneVisible (laneBounds notifications) lane ≤
      v.gate.allocated + n := by
  rcases installLanes_laneBounds v.gate.laneVisible notifications lane with heq | ⟨m, hm, -, heq⟩
  · rw [heq]
    exact Nat.le_trans (h.laneVisible lane) (Nat.le_add_right _ _)
  · rw [heq]
    exact hannounced m hm

theorem release_below (h : Gated v) (hnew : NewEvents new notifications v.gate.allocated n none)
    (he : e ∈ new ++ v.entries) : e.globalSequence < v.gate.allocated + n := by
  rcases List.mem_append.mp he with he | he
  · exact (hnew.sequences e he).2
  · exact Nat.lt_of_lt_of_le (h.below e he) (Nat.le_add_right _ _)

theorem Gated.release (h : Gated v) (hempty : v.Empty)
    (hnew : NewEvents new notifications v.gate.allocated n none) :
    Gated (v.release new n notifications) where
  below e he := release_below h hnew he
  visible := Nat.le_refl _
  laneVisible lane := laneVisible_release_le h (fun m hm => (hnew.announced m hm).2) lane
  lanes := h.lanes
  stored := h.stored
  identities e he f hf := by
    rcases List.mem_append.mp he with he | he
    · rw [hnew.fences e he] at hf
      cases hf
    · exact h.identities e he f hf
  committed := h.committed
  settled e he _ := by
    rcases List.mem_append.mp he with he | he
    · obtain ⟨m, hm, hlane, hseq⟩ := hnew.notified e he
      refine .inl ⟨(hnew.sequences e he).2, ?_⟩
      rw [← hlane, ← hseq]
      exact lt_installLanes_laneBounds v.gate.laneVisible hm
    · rcases h.settled e he (h.not_pending_of_empty hempty he) with hreleased | hcancelled
      · refine .inl ⟨?_, ?_⟩
        · have hlt := Nat.lt_of_lt_of_le hreleased.1 h.visible
          exact Nat.lt_of_lt_of_le hlt (Nat.le_add_right _ _)
        · exact Nat.lt_of_lt_of_le hreleased.2
            (laneVisible_le_install h (fun m hm => (hnew.announced m hm).1) e.dagLane)
      · exact .inr hcancelled
  idle := h.idle
  fence L hL := by
    -- the empty fence starts over above the new events
    obtain ⟨floor, hopen⟩ := h.fence L hL
    have hnone := hempty L hL
    obtain ⟨hstart, hend, hnotifications⟩ := hopen.empty hnone
    refine ⟨v.gate.allocated + n, ?_⟩
    exact {
      token := hopen.token
      active := hopen.active
      identity := hopen.identity
      uncommitted := hopen.uncommitted
      visible := Nat.le_refl _
      laneVisible := laneVisible_release_le h fun m hm => (hnew.announced m hm).2
      allocated := Nat.le_refl _
      older := fun e he _ => release_below h hnew he
      held := fun e he hfence => by
        rcases List.mem_append.mp he with he | he
        · rw [hnew.fences e he] at hfence
          cases hfence
        · exact absurd ⟨L, hL, hfence⟩ (h.not_pending_of_empty hempty he)
      hullStart := fun a ha => by
        rw [show (v.release new n notifications).gate.activeFenceStart = none from hstart] at ha
        cases ha
      hullEnd := by
        rw [show (v.release new n notifications).gate.activeFenceEnd = 0 from hend]
        exact Nat.zero_le _
      publish := fun u hu => by
        rw [hnone] at hu
        cases hu
      notified := fun m hm => by
        rw [hnotifications] at hm
        cases hm
      empty := hopen.empty }

variable {L : LedgerView}

/-- Staging opens no new fence: an entry is pending after it exactly when it has the
identity of the open one. -/
theorem pending_stage_iff (e : IndexEntry) :
    (v.stage new n notifications L).Pending e ↔ fenceOf e.provenance = some L.identity := by
  constructor
  · rintro ⟨L', ⟨⟩, hfence⟩
    exact hfence
  · intro hfence
    exact ⟨_, rfl, hfence⟩

theorem pending_iff (hL : v.ledger = some L) (e : IndexEntry) :
    v.Pending e ↔ fenceOf e.provenance = some L.identity := by
  constructor
  · rintro ⟨L', hL', hfence⟩
    rw [hL] at hL'
    cases hL'
    exact hfence
  · intro hfence
    exact ⟨L, hL, hfence⟩

/-- The hull after staging starts at or below every sequence it covered and the new ones. -/
theorem stage_hullStart_le (g : SequenceGate) {a x : Nat} (first : Nat)
    (ha : g.activeFenceStart = some a) (hx : a ≤ x) :
    ∃ b, some (match g.activeFenceStart with
      | some current => min current first
      | none => first) = some b ∧ b ≤ x := by
  rw [ha]
  exact ⟨min a first, rfl, Nat.le_trans (Nat.min_le_left _ _) hx⟩

theorem OpenFence.held_stage (hopen : OpenFence v L floor)
    (hnew : NewEvents new notifications v.gate.allocated n (some L.identity)) (e : IndexEntry)
    (he : e ∈ new ++ v.entries) (hfence : fenceOf e.provenance = some L.identity) :
    InFence (v.stage new n notifications L).gate
      { L with
        publishUpTo := some (max (L.publishUpTo.getD 0) (v.gate.allocated + n))
        notifications := L.notifications ++ notifications } floor e := by
  rcases List.mem_append.mp he with he | he
  · obtain ⟨hlow, hhigh⟩ := hnew.sequences e he
    obtain ⟨m, hm, hlane, hseq⟩ := hnew.notified e he
    exact {
      above := Nat.le_trans hopen.allocated hlow
      hullStart := by
        cases hstart : v.gate.activeFenceStart with
        | none => exact ⟨v.gate.allocated, by simp [FenceView.stage, hstart], hlow⟩
        | some a =>
            refine ⟨min a v.gate.allocated, by simp [FenceView.stage, hstart], ?_⟩
            exact Nat.le_trans (Nat.min_le_right _ _) hlow
      hullEnd := Nat.lt_of_lt_of_le hhigh (Nat.le_max_right _ _)
      published := ⟨_, rfl, Nat.lt_of_lt_of_le hhigh (Nat.le_max_right _ _)⟩
      notified := ⟨m, List.mem_append_right _ hm, hlane, hseq⟩ }
  · have hheld := hopen.held e he hfence
    obtain ⟨a, ha, hle⟩ := hheld.hullStart
    obtain ⟨u, hu, hlt⟩ := hheld.published
    obtain ⟨m, hm, hannounced⟩ := hheld.notified
    exact {
      above := hheld.above
      hullStart := stage_hullStart_le v.gate v.gate.allocated ha hle
      hullEnd := Nat.lt_of_lt_of_le hheld.hullEnd (Nat.le_max_left _ _)
      published := by
        refine ⟨_, rfl, Nat.lt_of_lt_of_le hlt ?_⟩
        rw [hu]
        exact Nat.le_max_left _ _
      notified := ⟨m, List.mem_append_left _ hm, hannounced⟩ }

theorem Gated.stage (h : Gated v) (hL : v.ledger = some L)
    (hnew : NewEvents new notifications v.gate.allocated n (some L.identity)) :
    Gated (v.stage new n notifications L) := by
  obtain ⟨floor, hopen⟩ := h.fence L hL
  have hle : v.gate.allocated ≤ v.gate.allocated + n := Nat.le_add_right _ _
  exact {
    below := fun e he => by
      rcases List.mem_append.mp he with he | he
      · exact (hnew.sequences e he).2
      · exact Nat.lt_of_lt_of_le (h.below e he) hle
    visible := Nat.le_trans h.visible hle
    laneVisible := fun lane => Nat.le_trans (h.laneVisible lane) hle
    lanes := h.lanes
    stored := h.stored
    identities := fun e he f hf => by
      rcases List.mem_append.mp he with he | he
      · rw [hnew.fences e he] at hf
        cases hf
        exact hopen.identity
      · exact h.identities e he f hf
    committed := h.committed
    settled := fun e he hpending => by
      rw [pending_stage_iff] at hpending
      rcases List.mem_append.mp he with he | he
      · exact absurd (hnew.fences e he) hpending
      · rcases h.settled e he (fun hp => hpending ((pending_iff hL e).mp hp)) with hr | hc
        · exact .inl hr
        · exact .inr hc
    idle := fun hnone => by cases hnone
    fence := fun L' hL' => by
      cases hL'
      refine ⟨floor, ?_⟩
      exact {
        token := hopen.token
        active := hopen.active
        identity := hopen.identity
        uncommitted := hopen.uncommitted
        visible := hopen.visible
        laneVisible := hopen.laneVisible
        allocated := Nat.le_trans hopen.allocated hle
        older := fun e he hfence => by
          rcases List.mem_append.mp he with he | he
          · exact absurd (hnew.fences e he) hfence
          · exact hopen.older e he hfence
        held := hopen.held_stage hnew
        hullStart := fun a ha => by
          cases ha
          cases hstart : v.gate.activeFenceStart with
          | none => exact hopen.allocated
          | some b => exact Nat.le_min.mpr ⟨hopen.hullStart b hstart, hopen.allocated⟩
        hullEnd := Nat.max_le.mpr ⟨Nat.le_trans hopen.hullEnd hle, Nat.le_refl _⟩
        publish := fun u hu => by
          cases hu
          refine ⟨Nat.le_trans (Nat.le_trans hopen.allocated hle) (Nat.le_max_right _ _), ?_⟩
          refine Nat.max_le.mpr ⟨?_, Nat.le_refl _⟩
          cases hu : L.publishUpTo with
          | none => exact Nat.zero_le _
          | some u => exact Nat.le_trans (hopen.publish u hu).2 hle
        notified := fun m hm => by
          rcases List.mem_append.mp hm with hm | hm
          · exact ⟨(hopen.notified m hm).1, Nat.lt_of_lt_of_le (hopen.notified m hm).2 hle⟩
          · obtain ⟨hlow, hhigh⟩ := hnew.announced m hm
            exact ⟨Nat.le_trans hopen.allocated hlow, hhigh⟩
        empty := fun hnone => by cases hnone } }

end NewEvents

/-! ### The end of a fence -/

namespace FenceView

/-- What the fence held back is published and the gate forgets it. -/
def commitFence (L : LedgerView) (v : FenceView) : FenceView :=
  { v with
    gate := (match L.publishUpTo with
      | some u =>
          { v.gate with
            visible := u
            laneVisible :=
              SequenceGate.installLanes v.gate.laneVisible (laneBounds L.notifications) }
      | none => v.gate).closeFence
    ledger := none
    committed := L.identity :: v.committed }

/-- The hull of the fence is cancelled, and the given points on their lanes. -/
def cancelFence (points : List (Nat × Range)) (v : FenceView) : FenceView :=
  { v with
    gate := { v.gate.closeFence with
      cancelledRanges :=
        match v.gate.activeFenceStart with
        | some start =>
            if start < v.gate.activeFenceEnd then
              insertRange v.gate.cancelledRanges start v.gate.activeFenceEnd
            else v.gate.cancelledRanges
        | none => v.gate.cancelledRanges
      laneCancelledRanges := SequenceGate.cancelOnLanes v.gate.laneCancelledRanges points }
    ledger := none }

def persist (v : FenceView) : FenceView :=
  { v with stored := some v.gate.cancelledRangesSnapshot }

end FenceView

section FenceEnd

variable {v : FenceView} {L : LedgerView}

theorem Gated.persist (h : Gated v) : Gated v.persist :=
  { h with
    settled := h.settled
    stored := fun ranges hranges => by
      cases hranges
      exact h.lanes
    fence := fun L hL => by
      obtain ⟨floor, hopen⟩ := h.fence L hL
      exact ⟨floor, { hopen with }⟩ }

/-- The gate agrees to publish what an open fence holds. -/
theorem OpenFence.publishes (hopen : OpenFence v L floor) {u : Nat} (hu : L.publishUpTo = some u)
    (operation : String) :
    v.gate.publishOnLanes u (laneBounds L.notifications) operation =
      .ok { v.gate with
        visible := u
        laneVisible :=
          SequenceGate.installLanes v.gate.laneVisible (laneBounds L.notifications) } := by
  apply publishOnLanes_laneBounds
  · exact Nat.le_trans hopen.visible (hopen.publish u hu).1
  · exact (hopen.publish u hu).2
  · intro m hm
    exact ⟨Nat.le_trans (hopen.laneVisible m.lane) (hopen.notified m hm).1, (hopen.notified m hm).2⟩

theorem OpenFence.laneVisible_le (hopen : OpenFence v L floor) (lane : Nat) :
    v.gate.laneVisible lane ≤
      SequenceGate.installLanes v.gate.laneVisible (laneBounds L.notifications) lane := by
  rcases installLanes_laneBounds v.gate.laneVisible L.notifications lane with heq | ⟨m, hm, -, heq⟩
  · rw [heq]
  · rw [heq]
    have hle := Nat.le_trans (hopen.laneVisible lane) (hopen.notified m hm).1
    exact Nat.le_succ_of_le hle

/-- A commit moves no bound backwards. -/
theorem OpenFence.released_commit (hopen : OpenFence v L floor) (h : Released v.gate e) :
    Released (v.commitFence L).gate e := by
  unfold FenceView.commitFence
  cases hu : L.publishUpTo with
  | none => exact h
  | some u =>
      refine ⟨?_, ?_⟩
      · exact Nat.lt_of_lt_of_le h.1 (Nat.le_trans hopen.visible (hopen.publish u hu).1)
      · exact Nat.lt_of_lt_of_le h.2 (hopen.laneVisible_le e.dagLane)

/-- A commit releases what the fence held. -/
theorem OpenFence.held_commit (hopen : OpenFence v L floor) (he : e ∈ v.entries)
    (hfence : fenceOf e.provenance = some L.identity) :
    Released (v.commitFence L).gate e := by
  have hheld := hopen.held e he hfence
  obtain ⟨u, hu, hlt⟩ := hheld.published
  obtain ⟨m, hm, hlane, hseq⟩ := hheld.notified
  unfold FenceView.commitFence
  rw [hu]
  refine ⟨hlt, ?_⟩
  rw [← hlane, ← hseq]
  exact lt_installLanes_laneBounds v.gate.laneVisible hm

theorem commitFence_cancelled (e : IndexEntry) :
    Cancelled (v.commitFence L).gate e ↔ Cancelled v.gate e := by
  unfold FenceView.commitFence
  cases L.publishUpTo with
  | none => exact Iff.rfl
  | some u => exact Iff.rfl

theorem commitFence_allocated : (v.commitFence L).gate.allocated = v.gate.allocated := by
  unfold FenceView.commitFence
  cases L.publishUpTo with
  | none => rfl
  | some u => rfl

theorem Gated.commit (h : Gated v) (hL : v.ledger = some L) : Gated (v.commitFence L) := by
  obtain ⟨floor, hopen⟩ := h.fence L hL
  exact {
    below := fun e he => by
      rw [commitFence_allocated]
      exact h.below e he
    visible := by
      unfold FenceView.commitFence
      cases hu : L.publishUpTo with
      | none => exact h.visible
      | some u => exact (hopen.publish u hu).2
    laneVisible := fun lane => by
      unfold FenceView.commitFence
      cases hu : L.publishUpTo with
      | none => exact h.laneVisible lane
      | some u =>
          change SequenceGate.installLanes _ _ lane ≤ v.gate.allocated
          rcases installLanes_laneBounds v.gate.laneVisible L.notifications lane with
            heq | ⟨m, hm, -, heq⟩
          · rw [heq]
            exact h.laneVisible lane
          · rw [heq]
            exact (hopen.notified m hm).2
    lanes := by
      unfold FenceView.commitFence
      cases L.publishUpTo with
      | none => exact h.lanes
      | some u => exact h.lanes
    stored := h.stored
    identities := h.identities
    committed := fun f hf => by
      rcases List.mem_cons.mp hf with rfl | hf
      · exact hopen.identity
      · exact h.committed f hf
    settled := fun e he _ => by
      by_cases hfence : fenceOf e.provenance = some L.identity
      · exact .inl (hopen.held_commit he hfence)
      · rcases h.settled e he (fun hp => hfence ((pending_iff hL e).mp hp)) with hr | hc
        · exact .inl (hopen.released_commit hr)
        · exact .inr ((commitFence_cancelled e).mpr hc)
    idle := fun _ => ⟨rfl, rfl⟩
    fence := fun L' hL' => by cases hL' }

/-- Cancelled after a cancellation: cancelled before, or in the hull of the fence. -/
theorem rangeContains_cancelFence (points : List (Nat × Range)) (x : Nat) :
    rangeContains (v.cancelFence points).gate.cancelledRanges x = true ↔
      rangeContains v.gate.cancelledRanges x = true ∨
        ∃ a, v.gate.activeFenceStart = some a ∧ a ≤ x ∧ x < v.gate.activeFenceEnd := by
  unfold FenceView.cancelFence
  dsimp only
  cases hstart : v.gate.activeFenceStart with
  | none => simp
  | some a =>
      dsimp only
      split
      · rw [rangeContains_insertRange]
        simp
      · rename_i hempty
        constructor
        · exact fun hx => .inl hx
        · rintro (hx | ⟨b, hb, hle, hlt⟩)
          · exact hx
          · cases hb
            exact absurd (Nat.lt_of_le_of_lt hle hlt) hempty

/-- The points cancelled on lanes lie in the hull. -/
def PointsInHull (g : SequenceGate) (points : List (Nat × Range)) : Prop :=
  ∀ p ∈ points, ∃ a, g.activeFenceStart = some a ∧ a ≤ p.2.1 ∧ p.2.2 ≤ g.activeFenceEnd

theorem Gated.cancel (h : Gated v) (hL : v.ledger = some L) {points : List (Nat × Range)}
    (hpoints : PointsInHull v.gate points) : Gated (v.cancelFence points) := by
  obtain ⟨floor, hopen⟩ := h.fence L hL
  exact {
    below := h.below
    visible := h.visible
    laneVisible := h.laneVisible
    lanes := fun lane x hx => by
      apply (rangeContains_cancelFence points x).mpr
      have hx : rangeContains (SequenceGate.cancelOnLanes v.gate.laneCancelledRanges points lane) x
          = true := hx
      rw [SequenceGate.rangeContains_cancelOnLanes, Bool.or_eq_true] at hx
      rcases hx with hx | hx
      · exact .inl (h.lanes lane x hx)
      · obtain ⟨p, hp, hin⟩ := List.any_eq_true.mp hx
        obtain ⟨a, ha, hlow, hhigh⟩ := hpoints p hp
        simp only [Bool.and_eq_true, decide_eq_true_eq] at hin
        exact .inr ⟨a, ha, Nat.le_trans hlow hin.2.1, Nat.lt_of_lt_of_le hin.2.2 hhigh⟩
    stored := h.stored
    identities := h.identities
    committed := h.committed
    settled := fun e he _ => by
      by_cases hfence : fenceOf e.provenance = some L.identity
      · have hheld := hopen.held e he hfence
        obtain ⟨a, ha, hle⟩ := hheld.hullStart
        exact .inr ((rangeContains_cancelFence points _).mpr (.inr ⟨a, ha, hle, hheld.hullEnd⟩))
      · rcases h.settled e he (fun hp => hfence ((pending_iff hL e).mp hp)) with hr | hc
        · exact .inl hr
        · exact .inr ((rangeContains_cancelFence points _).mpr (.inl hc))
    idle := fun _ => ⟨rfl, rfl⟩
    fence := fun L' hL' => by cases hL' }

end FenceEnd

end Batpak.Store
