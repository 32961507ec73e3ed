/-
Module: Batpak.Proofs.FrontierInvariant
Purpose: How the sequence gate, the watermarks and the fence ledger move together, through every
  phase of every command.
Trusted boundary: none
Main exports: CoveredStep, machineStep_settled
-/
import Batpak.Proofs.DurableHonesty
import Batpak.Proofs.WatermarkLattice
import Batpak.Store.Frontier

namespace Batpak.Store

open Batpak.Util

variable {w w' : WatermarkState} {upTo firstSeq : Nat} {point p : HlcPoint} {ns : List Notification}
  {g : SequenceGate} {operation : String} {v v' : FrontierView} {staged : List StagedCommittedEvent}
  {P : FrontierView → Prop}

/-! ### What the frontier depends on -/

/-- What a fence has held back so far. -/
structure Withheld where
  token : Nat
  publishUpTo : Option Nat
  frontierPoint : Option HlcPoint
  notifications : List Notification

structure FrontierView where
  gate : SequenceGate
  entries : List IndexEntry
  watermark : WatermarkState
  ledger : Option Withheld

def FenceLedger.withheld (fence : FenceLedger) : Withheld :=
  ⟨fence.token, fence.publishUpTo, fence.frontierPoint, fence.notifications⟩

def WriterCore.frontier (s : WriterCore) : FrontierView :=
  ⟨s.index.gate, s.index.inserted, s.watermark, s.fenceLedger.map (·.withheld)⟩

/-- A publish of these notifications up to `upTo` reaches exactly its highest event, and
all of them have been accepted. -/
structure Publishable (w : WatermarkState) (upTo : Nat) (point : HlcPoint)
    (ns : List Notification) : Prop where
  top : ∃ n ∈ ns, n.sequence + 1 = upTo
  bound : ∀ n ∈ ns, n.sequence < upTo
  point : point.globalSequence < upTo
  accepted : ∀ n ∈ ns, AcceptedAt w n.lane n.sequence

/-- The ledger belongs to the active fence and holds back something publishable, or nothing. -/
structure Withheld.Ok (fence : Withheld) (g : SequenceGate) (w : WatermarkState) : Prop where
  active : g.activeFence = fence.token
  real : fence.token ≠ 0
  content :
    (fence.publishUpTo = none ∧ fence.frontierPoint = none ∧ fence.notifications = []) ∨
      ∃ upTo point, fence.publishUpTo = some upTo ∧ fence.frontierPoint = some point ∧
        Publishable w upTo point fence.notifications

/-- The watermarks moved from `w` to `w'` without touching the applied points. -/
structure Advanced (w w' : WatermarkState) : Prop where
  notBackwards : NotBackwards w w'
  applied : w'.applied = w.applied
  laneApplied : ∀ lane, (w'.lanes lane).applied = (w.lanes lane).applied

/-- A lookup of the entry's id finds this entry. -/
def Unshadowed (entries : List IndexEntry) (e : IndexEntry) : Prop :=
  entries.find? (fun e' => e'.eventId == e.eventId) = some e

/-- The invariant of the frontier. `start` are the lane bounds the store was opened with,
`w₀` earlier watermarks. With `honest`, the durable point stays behind the written one, the
applied points behind the visible ones, and entries whose id was used again count as well. -/
structure FrontierSettled (start : Nat → Nat) (honest : Prop) (w₀ : WatermarkState)
    (v : FrontierView) : Prop where
  marks : FrontierMarks v.watermark
  since : Advanced w₀ v.watermark
  applied : honest → AppliedBehind v.watermark
  durable : honest → v.watermark.durable.globalSequence ≤ v.watermark.written.globalSequence
  accepted : v.watermark.accepted.globalSequence ≤ v.gate.allocated
  visible : v.gate.visible = v.watermark.visible.globalSequence + 1
  bound : v.gate.visible ≤ v.gate.allocated
  lane : ∀ lane, v.gate.laneVisible lane = start lane ∨
    v.gate.laneVisible lane = (v.watermark.lanes lane).visible.globalSequence + 1
  laneBelow : ∀ lane,
    (v.watermark.lanes lane).visible.globalSequence ≤ v.gate.laneVisible lane - 1
  laneBound : ∀ lane, v.gate.laneVisible lane ≤ v.gate.allocated
  shown : ∀ e ∈ v.entries, honest ∨ Unshadowed v.entries e →
    v.gate.isVisibleOnLane e.globalSequence e.dagLane = true →
    e.globalSequence ≤ (v.watermark.lanes e.dagLane).visible.globalSequence
  held : ∀ fence, v.ledger = some fence → fence.Ok v.gate v.watermark

theorem Advanced.refl (w : WatermarkState) : Advanced w w :=
  ⟨.refl w, rfl, fun _ => rfl⟩

theorem Advanced.trans {w'' : WatermarkState} (h : Advanced w w') (h' : Advanced w' w'') :
    Advanced w w'' where
  notBackwards := h.notBackwards.trans h'.notBackwards
  applied := h'.applied.trans h.applied
  laneApplied lane := (h'.laneApplied lane).trans (h.laneApplied lane)

/-- The visible points only move away from the applied ones. -/
theorem Advanced.appliedBehind (h : Advanced w w') (hw : AppliedBehind w) : AppliedBehind w' where
  global := by
    rw [h.applied]
    exact Nat.le_trans hw.global h.notBackwards.global.visible
  lanes lane := by
    rw [h.laneApplied]
    exact Nat.le_trans (hw.lanes lane) (h.notBackwards.lanes lane).visible

/-! ### The applied points are left alone -/

theorem Advanced.accept (w : WatermarkState) (lane : Nat) (p : HlcPoint) :
    Advanced w (w.advanceAcceptedOnLane lane p) := by
  refine ⟨.accept w lane p, ?_, fun lane' => ?_⟩
  · unfold WatermarkState.advanceAcceptedOnLane
    dsimp only
    split <;> rfl
  · obtain ⟨point, -, heq⟩ := advanceAccepted_eq w lane p
    rw [heq, WatermarkState.onLane_lanes]
    split <;> rfl

theorem Advanced.write (w : WatermarkState) (lane : Nat) (p : HlcPoint) :
    Advanced w (w.advanceWrittenOnLane lane p) := by
  refine ⟨.write w lane p, rfl, fun lane' => ?_⟩
  unfold WatermarkState.advanceWrittenOnLane
  rw [WatermarkState.onLane_lanes]
  split <;> rfl

theorem Advanced.sync (w : WatermarkState) : Advanced w w.advanceDurableToAccepted := by
  refine ⟨.sync w, rfl, fun lane => ?_⟩
  unfold WatermarkState.advanceDurableToAccepted WatermarkState.advanceDurable
    WatermarkState.advanceLaneDurabilityToPhysical
  dsimp only
  split <;> rfl

theorem Advanced.visibleOnLane (w : WatermarkState) (lane : Nat) (p : HlcPoint) :
    Advanced w (w.advanceVisibleAndEmittedOnLane lane p) := by
  refine ⟨.visibleOnLane w lane p, rfl, fun lane' => ?_⟩
  unfold WatermarkState.advanceVisibleAndEmittedOnLane
  rw [WatermarkState.onLane_lanes]
  split <;> rfl

theorem Advanced.visibleOnLanes (w : WatermarkState) (ns : List Notification) :
    Advanced w (advanceVisibleOnLanes w ns) := by
  unfold advanceVisibleOnLanes
  generalize lanePublishPointsFromNotifications ns = points
  induction points generalizing w with
  | nil => exact .refl w
  | cons p rest ih => exact (Advanced.visibleOnLane w p.1 p.2.frontierPoint).trans (ih _)

theorem Advanced.publish (w : WatermarkState) (point : HlcPoint) (ns : List Notification) :
    Advanced w (advanceVisibleOnLanes (w.advanceVisibleAndEmitted point) ns) :=
  Advanced.trans ⟨.visible w point, rfl, fun _ => rfl⟩ (.visibleOnLanes _ ns)

theorem Publishable.mono (h : Publishable w upTo point ns) (hle : NotBackwards w w') :
    Publishable w' upTo point ns :=
  { h with accepted := fun n hn => (h.accepted n hn).mono hle }

theorem Withheld.Ok.mono {fence : Withheld} {g' : SequenceGate} (h : fence.Ok g w)
    (hgate : g'.activeFence = g.activeFence) (hle : NotBackwards w w') :
    fence.Ok g' w' where
  active := hgate.trans h.active
  real := h.real
  content := by
    rcases h.content with hnone | ⟨upTo, point, hupTo, hpoint, hpub⟩
    · exact .inl hnone
    · exact .inr ⟨upTo, point, hupTo, hpoint, hpub.mono hle⟩

/-! ### The moves -/

namespace FrontierSettled

variable {start : Nat → Nat} {honest : Prop} {w₀ : WatermarkState} {v : FrontierView}
  (h : FrontierSettled start honest w₀ v)

include h

/-- Measured from now on. -/
theorem rebase : FrontierSettled start honest v.watermark v :=
  { h with since := .refl v.watermark }

/-- The watermarks move, their visible points stay. -/
theorem advance (hadvanced : Advanced v.watermark w) (hmarks : FrontierMarks w)
    (hvisible : w.visible = v.watermark.visible)
    (hlanes : ∀ lane, (w.lanes lane).visible = (v.watermark.lanes lane).visible)
    (hdurable : honest → w.durable.globalSequence ≤ w.written.globalSequence)
    (haccepted : w.accepted.globalSequence ≤ v.gate.allocated) :
    FrontierSettled start honest w₀ { v with watermark := w } where
  marks := hmarks
  since := h.since.trans hadvanced
  applied hh := hadvanced.appliedBehind (h.applied hh)
  durable := hdurable
  accepted := haccepted
  visible := by
    rw [hvisible]
    exact h.visible
  bound := h.bound
  lane lane := by
    rw [hlanes]
    exact h.lane lane
  laneBelow lane := by
    rw [hlanes]
    exact h.laneBelow lane
  laneBound := h.laneBound
  shown e he hknown hshown := by
    rw [hlanes]
    exact h.shown e he hknown hshown
  held fence hfence := (h.held fence hfence).mono rfl hadvanced.notBackwards

theorem accept (lane : Nat) (hp : p.globalSequence ≤ v.gate.allocated) :
    FrontierSettled start honest w₀
      { v with watermark := v.watermark.advanceAcceptedOnLane lane p } := by
  obtain ⟨point, -, heq⟩ := advanceAccepted_eq v.watermark lane p
  apply h.advance (.accept v.watermark lane p) (h.marks.accept lane p)
  · rw [heq]
    rfl
  · intro lane'
    rw [heq, WatermarkState.onLane_lanes]
    split <;> rfl
  · rw [heq]
    exact h.durable
  · rw [WatermarkState.advanceAcceptedOnLane_accepted]
    exact Nat.max_le.mpr ⟨h.accepted, hp⟩

theorem write {lane : Nat} (hp : AcceptedAt v.watermark lane p.globalSequence) :
    FrontierSettled start honest w₀
      { v with watermark := v.watermark.advanceWrittenOnLane lane p } := by
  have hadvanced := Advanced.write v.watermark lane p
  refine h.advance hadvanced (h.marks.write hp) rfl (fun lane' => ?_) (fun hh => ?_) h.accepted
  · unfold WatermarkState.advanceWrittenOnLane
    rw [WatermarkState.onLane_lanes]
    split <;> rfl
  · exact Nat.le_trans (h.durable hh) hadvanced.notBackwards.global.written

/-- The accepted point, which a sync makes durable, has been written. -/
theorem sync
    (hcovered : honest →
      v.watermark.accepted.globalSequence ≤ v.watermark.written.globalSequence) :
    FrontierSettled start honest w₀
      { v with watermark := v.watermark.advanceDurableToAccepted } := by
  refine h.advance (.sync v.watermark) h.marks.sync rfl (fun lane => ?_) (fun hh => ?_) h.accepted
  · unfold WatermarkState.advanceDurableToAccepted WatermarkState.advanceDurable
      WatermarkState.advanceLaneDurabilityToPhysical
    dsimp only
    split <;> rfl
  · exact HlcPoint.maxBySequence_le (h.durable hh) (hcovered hh)

theorem reserve (n : Nat) :
    FrontierSettled start honest w₀ { v with gate := v.gate.reserve n } where
  marks := h.marks
  since := h.since
  applied := h.applied
  durable := h.durable
  accepted := Nat.le_trans h.accepted (Nat.le_add_right _ _)
  visible := h.visible
  bound := Nat.le_trans h.bound (Nat.le_add_right _ _)
  lane := h.lane
  laneBelow := h.laneBelow
  laneBound lane := Nat.le_trans (h.laneBound lane) (Nat.le_add_right _ _)
  shown := h.shown
  held fence hfence := (h.held fence hfence).mono rfl (.refl _)

/-- Events at or above every lane bound are not visible yet. -/
theorem insert {es : List IndexEntry}
    (hes : ∀ e ∈ es, v.gate.laneVisible e.dagLane ≤ e.globalSequence) :
    FrontierSettled start honest w₀ { v with entries := es ++ v.entries } := by
  refine { h with shown := fun e he hknown hshown => ?_, held := h.held }
  by_cases hnew : e ∈ es
  · have hlt : e.globalSequence < v.gate.laneVisible e.dagLane := by
      simp only [SequenceGate.isVisibleOnLane, Bool.and_eq_true, decide_eq_true_eq] at hshown
      exact hshown.1.1
    exact absurd hlt (Nat.not_lt.mpr (hes e hnew))
  · refine h.shown e ((List.mem_append.mp he).resolve_left hnew) (hknown.imp_right ?_) hshown
    intro hfound
    rw [Unshadowed, List.find?_append, Option.or_eq_some_iff] at hfound
    rcases hfound with hfound | ⟨-, hfound⟩
    · exact absurd (List.mem_of_find?_eq_some hfound) hnew
    · exact hfound

/-- The gate changes its fence or hides events, the ledger with it. -/
theorem regate {ledger : Option Withheld}
    (hallocated : g.allocated = v.gate.allocated) (hvisible : g.visible = v.gate.visible)
    (hlanes : g.laneVisible = v.gate.laneVisible)
    (hshown : ∀ sequence lane, g.isVisibleOnLane sequence lane = true →
      v.gate.isVisibleOnLane sequence lane = true)
    (hheld : ∀ fence, ledger = some fence → fence.Ok g v.watermark) :
    FrontierSettled start honest w₀ { v with gate := g, ledger := ledger } where
  marks := h.marks
  since := h.since
  applied := h.applied
  durable := h.durable
  accepted := by rw [hallocated]; exact h.accepted
  visible := hvisible.trans h.visible
  bound := by rw [hallocated, hvisible]; exact h.bound
  lane lane := by rw [hlanes]; exact h.lane lane
  laneBelow lane := by rw [hlanes]; exact h.laneBelow lane
  laneBound lane := by rw [hlanes, hallocated]; exact h.laneBound lane
  shown e he hknown hs := h.shown e he hknown (hshown _ _ hs)
  held := hheld

end FrontierSettled

/-! ### The publish -/

/-- A publish that went through moved every lane bound forwards, below the allocator. -/
theorem publishOnLanes_lane_bounds {g' : SequenceGate}
    (h : g.publishOnLanes upTo (laneBounds ns) operation = .ok g') (lane : Nat) :
    g.laneVisible lane ≤ SequenceGate.installLanes g.laneVisible (laneBounds ns) lane ∧
      (SequenceGate.installLanes g.laneVisible (laneBounds ns) lane = g.laneVisible lane ∨
        SequenceGate.installLanes g.laneVisible (laneBounds ns) lane ≤ g.allocated) := by
  by_cases hmem : ∃ p ∈ laneBounds ns, p.1 = lane
  · obtain ⟨p, hp, rfl⟩ := hmem
    obtain ⟨hlow, hhigh⟩ := SequenceGate.publishOnLanes_lane_ok h p hp
    rw [SequenceGate.installLanes_of_mem _ _ (laneBounds_nodup ns) hp]
    exact ⟨hlow, .inr hhigh⟩
  · have hsame := SequenceGate.installLanes_of_not_mem g.laneVisible (laneBounds ns) lane
      fun p hp heq => hmem ⟨p, hp, heq⟩
    rw [hsame]
    exact ⟨Nat.le_refl _, .inl rfl⟩

theorem Publishable.point_le (h : Publishable w upTo point ns) :
    point.globalSequence ≤ w.accepted.globalSequence := by
  obtain ⟨n, hn, htop⟩ := h.top
  have haccepted := (h.accepted n hn).global
  have hpoint := h.point
  omega

/-- The visible point ends right below the bound, whatever order the frontier point was
accumulated in: the lane points include the highest notified event. -/
theorem Publishable.visible_eq (h : Publishable w upTo point ns)
    (hw : w.visible.globalSequence < upTo) :
    upTo = (advanceVisibleOnLanes (w.advanceVisibleAndEmitted point) ns).visible.globalSequence
      + 1 := by
  obtain ⟨n, hn, htop⟩ := h.top
  have hlow := @le_visibleOnLanes (w.advanceVisibleAndEmitted point) ns n hn
  have hhigh : (advanceVisibleOnLanes (w.advanceVisibleAndEmitted point)
      ns).visible.globalSequence ≤ upTo - 1 := by
    apply visibleOnLanes_le
    · apply HlcPoint.maxBySequence_le
      · omega
      · exact Nat.le_sub_one_of_lt h.point
    · exact fun m hm => Nat.le_sub_one_of_lt (h.bound m hm)
  omega

/-- On every lane the bound and the visible point stay, or meet. -/
theorem FrontierSettled.publish_lane {start : Nat → Nat} {honest : Prop} {w₀ : WatermarkState}
    (h : FrontierSettled start honest w₀ v) (point : HlcPoint)
    (hgate : v.gate.publishOnLanes upTo (laneBounds ns) operation = .ok g) (lane : Nat) :
    let w := advanceVisibleOnLanes (v.watermark.advanceVisibleAndEmitted point) ns
    let bound := SequenceGate.installLanes v.gate.laneVisible (laneBounds ns) lane
    (bound = v.gate.laneVisible lane ∧
        (w.lanes lane).visible.globalSequence =
          (v.watermark.lanes lane).visible.globalSequence) ∨
      bound = (w.lanes lane).visible.globalSequence + 1 := by
  intro w bound
  rcases visibleOnLanes_lane (v.watermark.advanceVisibleAndEmitted point) v.gate.laneVisible ns
    lane with ⟨hsame, hpoints⟩ | ⟨n, -, -, hbound, hpoint⟩
  · exact .inl ⟨hsame, congrArg (·.visible.globalSequence) hpoints⟩
  · right
    have hle := (publishOnLanes_lane_bounds hgate lane).1
    have hbelow := h.laneBelow lane
    rw [hbound] at hle
    have hold : (v.watermark.lanes lane).visible.globalSequence ≤ n.sequence := by omega
    change SequenceGate.installLanes v.gate.laneVisible (laneBounds ns) lane =
      ((advanceVisibleOnLanes (v.watermark.advanceVisibleAndEmitted point) ns).lanes
        lane).visible.globalSequence + 1
    rw [hbound, hpoint]
    exact congrArg (· + 1) (Nat.max_eq_right hold).symm

theorem advanceVisibleOnLanes_written (w : WatermarkState) (ns : List Notification) :
    (advanceVisibleOnLanes w ns).written = w.written := by
  unfold advanceVisibleOnLanes
  generalize lanePublishPointsFromNotifications ns = points
  induction points generalizing w with
  | nil => rfl
  | cons p rest ih => exact ih (w.advanceVisibleAndEmittedOnLane p.1 p.2.frontierPoint)

theorem FrontierSettled.publish {start : Nat → Nat} {honest : Prop} {w₀ : WatermarkState}
    (h : FrontierSettled start honest w₀ v) (hpub : Publishable v.watermark upTo point ns)
    (hgate : v.gate.publishOnLanes upTo (laneBounds ns) operation = .ok g) :
    FrontierSettled start honest w₀ { v with
      gate := g
      watermark := advanceVisibleOnLanes (v.watermark.advanceVisibleAndEmitted point) ns } := by
  have hbounds := publishOnLanes_lane_bounds hgate
  have hlane := h.publish_lane point hgate
  obtain ⟨hhigh, hlow, rfl⟩ := SequenceGate.publishOnLanes_ok hgate
  have hadvanced := Advanced.publish v.watermark point ns
  have hvisible : v.watermark.visible.globalSequence < upTo := by
    have := h.visible
    omega
  refine {
    marks := ?_
    since := h.since.trans hadvanced
    applied := fun hh => hadvanced.appliedBehind (h.applied hh)
    durable := fun hh => ?_
    accepted := ?_
    visible := hpub.visible_eq hvisible
    bound := hhigh
    lane := fun lane => ?_
    laneBelow := fun lane => ?_
    laneBound := fun lane => ?_
    shown := fun e he hknown hshown => ?_
    held := fun fence hfence => (h.held fence hfence).mono rfl hadvanced.notBackwards }
  · apply (h.marks.visible_global hpub.point_le).visibleOnLanes
    exact fun n hn => (hpub.accepted n hn).mono (.visible _ _)
  · rw [advanceVisibleOnLanes_written, (advanceVisibleOnLanes_durable _ ns).1]
    exact h.durable hh
  · rw [(advanceVisibleOnLanes_durable _ ns).2]
    exact h.accepted
  · rcases hlane lane with ⟨hsame, hpoint⟩ | hmeet
    · rcases h.lane lane with hstart | hold
      · exact .inl (hsame.trans hstart)
      · exact .inr (hsame.trans (hold.trans (congrArg (· + 1) hpoint.symm)))
    · exact .inr hmeet
  · rcases hlane lane with ⟨hsame, hpoint⟩ | hmeet
    · have hbelow := h.laneBelow lane
      rw [← hsame, ← hpoint] at hbelow
      exact hbelow
    · exact Nat.le_of_eq (congrArg (· - 1) hmeet).symm
  · rcases (hbounds lane).2 with hsame | hle
    · exact Nat.le_trans (Nat.le_of_eq hsame) (h.laneBound lane)
    · exact hle
  · have hshown' : e.globalSequence <
        SequenceGate.installLanes v.gate.laneVisible (laneBounds ns) e.dagLane ∧
        rangeContains v.gate.cancelledRanges e.globalSequence = false ∧
        rangeContains (v.gate.laneCancelledRanges e.dagLane) e.globalSequence = false := by
      simpa [SequenceGate.isVisibleOnLane, and_assoc] using hshown
    rcases hlane e.dagLane with ⟨hsame, hpoint⟩ | hmeet
    · rw [hsame] at hshown'
      refine Nat.le_trans (h.shown e he hknown ?_) (Nat.le_of_eq hpoint.symm)
      simpa [SequenceGate.isVisibleOnLane, and_assoc] using hshown'
    · exact Nat.lt_succ_iff.mp (Nat.lt_of_lt_of_eq hshown'.1 hmeet)

/-! ### Fences -/

theorem HlcPoint.max_lt {q : HlcPoint} {n : Nat} (hp : p.globalSequence < n)
    (hq : q.globalSequence < n) : (p.max q).globalSequence < n := by
  unfold HlcPoint.max
  split
  · exact hp
  · exact hq

/-- What a fenced command adds to the ledger stays publishable. -/
theorem Withheld.Ok.record {fence : Withheld} (h : fence.Ok g w)
    (hpub : Publishable w upTo point ns) :
    Withheld.Ok ⟨fence.token, some (max (fence.publishUpTo.getD 0) upTo),
      some ((fence.frontierPoint.getD .origin).max point), fence.notifications ++ ns⟩ g w := by
  refine ⟨h.active, h.real, .inr ⟨_, _, rfl, rfl, ?_⟩⟩
  obtain ⟨n, hn, htop⟩ := hpub.top
  rcases h.content with ⟨hupTo, hpoint, hnone⟩ | ⟨upTo₀, point₀, hupTo, hpoint, hpub₀⟩
  · rw [hupTo, hpoint, hnone, Option.getD_none, Option.getD_none, Nat.zero_max, List.nil_append]
    refine { hpub with point := HlcPoint.max_lt ?_ hpub.point }
    exact Nat.lt_of_le_of_lt (Nat.zero_le _) hpub.point
  · rw [hupTo, hpoint, Option.getD_some, Option.getD_some]
    obtain ⟨n₀, hn₀, htop₀⟩ := hpub₀.top
    refine ⟨?_, ?_, HlcPoint.max_lt ?_ ?_, ?_⟩
    · rcases Nat.le_total upTo₀ upTo with hle | hle
      · exact ⟨n, List.mem_append_right _ hn, by rw [Nat.max_eq_right hle]; exact htop⟩
      · exact ⟨n₀, List.mem_append_left _ hn₀, by rw [Nat.max_eq_left hle]; exact htop₀⟩
    · intro m hm
      rcases List.mem_append.mp hm with hm | hm
      · exact Nat.lt_of_lt_of_le (hpub₀.bound m hm) (Nat.le_max_left _ _)
      · exact Nat.lt_of_lt_of_le (hpub.bound m hm) (Nat.le_max_right _ _)
    · exact Nat.lt_of_lt_of_le hpub₀.point (Nat.le_max_left _ _)
    · exact Nat.lt_of_lt_of_le hpub.point (Nat.le_max_right _ _)
    · intro m hm
      rcases List.mem_append.mp hm with hm | hm
      · exact hpub₀.accepted m hm
      · exact hpub.accepted m hm

section Operations

variable {start : Nat → Nat} {honest : Prop} {w₀ : WatermarkState} {s : WriterCore}

theorem publishCommitted_settled (fenced : Bool) {first : Nat}
    (h : FrontierSettled start honest w₀ s.frontier) (hpub : Publishable s.watermark upTo point ns) :
    FrontierSettled start honest w₀
      (finalState (publishCommitted fenced first upTo point ns s)).frontier := by
  cases fenced with
  | false =>
      change FrontierSettled _ _ _
        (finalState (publishThenBroadcastUnfenced upTo point ns s)).frontier
      unfold publishThenBroadcastUnfenced
      cases hgate : s.index.gate.publishOnLanes upTo (laneBounds ns)
          "publish_then_broadcast_unfenced" with
      | error e => exact h
      | ok gate => exact h.publish hpub hgate
  | true =>
      change FrontierSettled _ _ _ (finalState (recordFenceProgress first upTo point ns s)).frontier
      unfold recordFenceProgress
      cases hledger : s.fenceLedger with
      | none => exact h
      | some fence =>
          have hheld := h.held fence.withheld (by rw [WriterCore.frontier, hledger]; rfl)
          -- the ledger's fence is the active one, so the gate takes the progress
          have hactive : s.index.gate.activeFence = fence.token := hheld.active
          simp only [SequenceGate.noteFenceProgress, if_pos hactive]
          refine h.regate rfl rfl rfl (fun _ _ hs => hs) ?_
          rintro _ hrec
          obtain rfl := Option.some.inj hrec
          exact (hheld.record hpub).mono rfl (.refl _)

theorem callerBeginFence_settled (h : FrontierSettled start honest w₀ s.frontier) :
    FrontierSettled start honest w₀ (callerBeginFence s).frontier := by
  change FrontierSettled _ _ _ { s.frontier with gate := s.index.gate.beginFence.2 }
  unfold SequenceGate.beginFence
  dsimp only
  split
  · rename_i hnone
    refine h.regate rfl rfl rfl (fun _ _ hs => hs) ?_
    intro fence hfence
    have hheld := h.held fence hfence
    exact absurd (hheld.active.symm.trans hnone) hheld.real
  · exact h.regate rfl rfl rfl (fun _ _ hs => hs) fun fence hfence =>
      (h.held fence hfence).mono rfl (.refl _)

theorem beginVisibilityFence_settled (token : Nat)
    (h : FrontierSettled start honest w₀ s.frontier) :
    FrontierSettled start honest w₀ (finalState (beginVisibilityFence token s)).frontier := by
  refine beginVisibilityFence_cases h ?_
  intro hledger hactive hreal
  refine h.regate rfl rfl rfl (fun _ _ hs => hs) ?_
  rintro _ hfresh
  obtain rfl := Option.some.inj hfresh
  exact ⟨hactive, hreal, .inl ⟨rfl, rfl, rfl⟩⟩

/-- Losing the ledger leaves the rest alone. -/
theorem FrontierSettled.dropLedger (h : FrontierSettled start honest w₀ v) :
    FrontierSettled start honest w₀ { v with ledger := none } :=
  h.regate rfl rfl rfl (fun _ _ hs => hs) fun _ hnone => by cases hnone

theorem FrontierSettled.closeFence (h : FrontierSettled start honest w₀ v) :
    FrontierSettled start honest w₀ { v with gate := v.gate.closeFence, ledger := none } :=
  h.regate rfl rfl rfl (fun _ _ hs => hs) fun _ hnone => by cases hnone

theorem commitVisibilityFence_settled (token : Nat)
    (h : FrontierSettled start honest w₀ s.frontier) :
    FrontierSettled start honest w₀ (finalState (commitVisibilityFence token s)).frontier := by
  refine commitVisibilityFence_cases h (fun _ _ _ _ _ => h.dropLedger) ?_
  rintro fence gate hledger rfl hgate
  have hheld := h.held fence.withheld (by rw [WriterCore.frontier, hledger]; rfl)
  have hactive : s.index.gate.activeFence = fence.token := hheld.active
  unfold WriterCore.fenceCommitted
  unfold SequenceGate.finishFenceOnLanes at hgate
  rw [if_pos hactive] at hgate
  rcases hheld.content with ⟨hupTo, hpoint, hnone⟩ | ⟨upTo, point, hupTo, hpoint, hpub⟩
  · change fence.publishUpTo = none at hupTo
    change fence.frontierPoint = none at hpoint
    change fence.notifications = [] at hnone
    rw [hupTo] at hgate
    cases hgate
    rw [hpoint, hnone]
    exact h.closeFence
  · change fence.publishUpTo = some upTo at hupTo
    change fence.frontierPoint = some point at hpoint
    rw [hupTo] at hgate
    rw [hpoint]
    dsimp only at hgate
    cases hpublish : s.index.gate.publishOnLanes upTo (laneBounds fence.notifications)
        "finish_visibility_fence" with
    | error e =>
        rw [hpublish] at hgate
        cases hgate
    | ok published =>
        rw [hpublish] at hgate
        cases hgate
        exact (h.publish hpub hpublish).closeFence

/-- Cancelling hides events and closes the fence. -/
theorem FrontierSettled.cancelFence (h : FrontierSettled start honest w₀ v) {token : Nat}
    {points : List (Nat × Range)} (hgate : v.gate.cancelFence token points = .ok g) :
    FrontierSettled start honest w₀ { v with gate := g, ledger := none } := by
  unfold SequenceGate.cancelFence at hgate
  split at hgate
  · cases hgate
    refine h.regate rfl rfl rfl ?_ fun _ hnone => by cases hnone
    intro sequence lane hshown
    simp only [SequenceGate.isVisibleOnLane, Bool.and_eq_true, decide_eq_true_eq,
      Bool.not_eq_true', SequenceGate.rangeContains_cancelOnLanes, Bool.or_eq_false_iff]
      at hshown ⊢
    obtain ⟨⟨hlt, hglobal⟩, hlane, -⟩ := hshown
    refine ⟨⟨hlt, ?_⟩, hlane⟩
    cases hstart : v.gate.activeFenceStart with
    | none =>
        simp only [hstart] at hglobal
        exact hglobal
    | some first =>
        simp only [hstart] at hglobal
        split at hglobal
        · rw [rangeContains_insertRange, Bool.or_eq_false_iff] at hglobal
          exact hglobal.1
        · exact hglobal
  · cases hgate

theorem gateAfterCancel_settled (token : Nat) (h : FrontierSettled start honest w₀ s.frontier) :
    FrontierSettled start honest w₀
      { s.frontier with gate := s.gateAfterCancel token, ledger := none } :=
  gateAfterCancel_cases h.dropLedger fun _ hgate => h.cancelFence hgate

theorem cancelVisibilityFence_settled (flt : Faults) (token : Nat)
    (h : FrontierSettled start honest w₀ s.frontier) :
    FrontierSettled start honest w₀ (finalState (cancelVisibilityFence flt token s)).frontier :=
  have hcancelled := gateAfterCancel_settled token h
  cancelVisibilityFence_cases h (fun _ _ _ _ => hcancelled) fun _ _ _ => hcancelled

theorem autoCancelFenceOnShutdown_settled (flt : Faults)
    (h : FrontierSettled start honest w₀ s.frontier) :
    FrontierSettled start honest w₀ (autoCancelFenceOnShutdown flt s).frontier :=
  autoCancelFenceOnShutdown_cases (fun _ => h) fun fence _ => gateAfterCancel_settled fence.token h

theorem autoCancelFenceOnShutdown_watermark (flt : Faults) (s : WriterCore) :
    (autoCancelFenceOnShutdown flt s).watermark = s.watermark :=
  autoCancelFenceOnShutdown_cases (fun _ => rfl) fun _ _ => rfl

/-! ### The commands in progress -/

/-- The sync of the view. -/
def FrontierView.synced (v : FrontierView) : FrontierView :=
  { v with watermark := v.watermark.advanceDurableToAccepted }

theorem syncActiveSegment_frontier (flt : Faults) (s : WriterCore) :
    (flt.sync = true ∧ (finalState (syncActiveSegment flt s)).frontier = s.frontier) ∨
      (finalState (syncActiveSegment flt s)).frontier = s.frontier.synced := by
  unfold syncActiveSegment
  split
  · rename_i hfails
    exact .inl ⟨hfails, rfl⟩
  · exact .inr rfl

theorem maybeRotateSegment_frontier (cfg : StoreConfig) (flt : Faults) (s : WriterCore) :
    (finalState (maybeRotateSegment cfg flt s)).frontier = s.frontier ∨
      ¬RotationQuiet cfg flt s ∧
        (finalState (maybeRotateSegment cfg flt s)).frontier = s.frontier.synced := by
  unfold maybeRotateSegment
  split
  · rename_i hfull
    split
    · exact .inl rfl
    · rename_i hcreate
      split
      · exact .inl rfl
      · rename_i hsync
        refine .inr ⟨?_, rfl⟩
        rintro (hroom | hfails | hfails)
        · rw [hfull] at hroom
          cases hroom
        · exact hcreate hfails
        · exact hsync hfails
  · exact .inl rfl

/-- The written point covers the accepted one, so a sync overstates nothing. -/
def WrittenCovers (s : WriterCore) : Prop :=
  s.watermark.accepted.globalSequence ≤ s.watermark.written.globalSequence

/-- The sync fails, or overstates nothing. -/
def SyncSafe (fails : Bool) (s : WriterCore) : Prop :=
  fails = true ∨ WrittenCovers s

theorem syncActiveSegment_settled (flt : Faults) (h : FrontierSettled start honest w₀ s.frontier)
    (hsafe : honest → SyncSafe flt.sync s) :
    FrontierSettled start honest w₀ (finalState (syncActiveSegment flt s)).frontier := by
  by_cases hfails : flt.sync = true
  · rcases syncActiveSegment_frontier flt s with ⟨-, hsame⟩ | hsynced
    · rw [hsame]
      exact h
    · unfold syncActiveSegment
      rw [if_pos hfails]
      exact h
  · rcases syncActiveSegment_frontier flt s with ⟨hfails', -⟩ | hsynced
    · exact absurd hfails' hfails
    · rw [hsynced]
      apply h.sync
      intro hh
      exact (hsafe hh).resolve_left hfails

/-- Sequences the writer handed out for the staged events, in order and above every lane
bound. -/
structure Staging (v : FrontierView) (firstSeq : Nat) (staged : List StagedCommittedEvent) :
    Prop where
  within : ∀ st ∈ staged, firstSeq ≤ st.globalSequence ∧
    st.globalSequence < firstSeq + staged.length
  top : staged ≠ [] → ∃ st ∈ staged, st.globalSequence + 1 = firstSeq + staged.length
  accepted : ∀ st ∈ staged, AcceptedAt v.watermark st.frame.dagLane st.globalSequence
  last : v.watermark.accepted.globalSequence ≤ firstSeq + (staged.length - 1)
  low : ∀ lane, v.gate.laneVisible lane ≤ firstSeq

/-- What the commands in progress rely on is the same. -/
structure StageKept (v v' : FrontierView) : Prop where
  allocated : v'.gate.allocated = v.gate.allocated
  laneVisible : v'.gate.laneVisible = v.gate.laneVisible
  accepted : v'.watermark.accepted = v.watermark.accepted
  laneAccepted : ∀ lane, (v'.watermark.lanes lane).accepted = (v.watermark.lanes lane).accepted
  written : v.watermark.written.globalSequence ≤ v'.watermark.written.globalSequence

theorem StageKept.refl (v : FrontierView) : StageKept v v :=
  ⟨rfl, rfl, rfl, fun _ => rfl, Nat.le_refl _⟩

theorem StageKept.synced (v : FrontierView) : StageKept v v.synced := by
  refine ⟨rfl, rfl, rfl, fun lane => ?_, Nat.le_refl _⟩
  unfold FrontierView.synced WatermarkState.advanceDurableToAccepted WatermarkState.advanceDurable
    WatermarkState.advanceLaneDurabilityToPhysical
  dsimp only
  split <;> rfl

theorem StageKept.write (v : FrontierView) (lane : Nat) (p : HlcPoint) :
    StageKept v { v with watermark := v.watermark.advanceWrittenOnLane lane p } := by
  refine ⟨rfl, rfl, rfl, fun lane' => ?_, (NotBackwards.write _ lane p).global.written⟩
  unfold WatermarkState.advanceWrittenOnLane
  rw [WatermarkState.onLane_lanes]
  split <;> rfl

theorem AcceptedAt.kept (h : StageKept v v') {lane sequence : Nat}
    (ha : AcceptedAt v.watermark lane sequence) : AcceptedAt v'.watermark lane sequence where
  global := by rw [h.accepted]; exact ha.global
  onLane := by rw [h.laneAccepted]; exact ha.onLane

theorem Staging.kept (h : StageKept v v') (hs : Staging v firstSeq staged) :
    Staging v' firstSeq staged where
  within := hs.within
  top := hs.top
  accepted st hst := (hs.accepted st hst).kept h
  last := by rw [h.accepted]; exact hs.last
  low lane := by rw [h.laneVisible]; exact hs.low lane

theorem Staging.publishable (h : Staging v firstSeq staged) (hne : staged ≠ []) :
    Publishable v.watermark (firstSeq + staged.length) (batchFrontier staged)
      (staged.map (·.notification)) := by
  refine ⟨?_, ?_, ?_, ?_⟩
  · obtain ⟨st, hst, htop⟩ := h.top hne
    exact ⟨st.notification, List.mem_map.mpr ⟨st, hst, rfl⟩, htop⟩
  · intro n hn
    obtain ⟨st, hst, rfl⟩ := List.mem_map.mp hn
    exact (h.within st hst).2
  · have hlast := h.within _ (List.getLast_mem hne)
    unfold batchFrontier
    rw [List.getLast?_eq_some_getLast hne]
    exact hlast.2
  · intro n hn
    obtain ⟨st, hst, rfl⟩ := List.mem_map.mp hn
    exact h.accepted st hst

/-- The plan's events take exactly the reserved sequences. -/
structure PlanOk (v : FrontierView) (plan : BatchPlan) : Prop where
  staging : Staging v plan.firstSeq plan.staged
  count : plan.staged.length = plan.count
  nonempty : plan.staged ≠ []

/-- How far the command in progress has come, as far as the frontier is concerned. -/
def StageOk (v : FrontierView) : Stage → Prop
  | .idle => True
  | .accepted _ _ st _ | .rotated _ _ st _ | .written _ _ st _ =>
      AcceptedAt v.watermark st.frame.dagLane st.globalSequence ∧
        st.globalSequence = v.gate.allocated
  | .committed _ st _ => AcceptedAt v.watermark st.frame.dagLane st.globalSequence
  | .batchStaged _ plan | .batchRotated _ plan _ _ | .batchSynced _ plan _ =>
      PlanOk v plan
  | .batchOpen _ plan _ remaining =>
      PlanOk v plan ∧ (∀ st ∈ remaining, st ∈ plan.staged) ∧
        ∀ st ∈ plan.staged, st ∈ remaining ∨
          st.globalSequence ≤ v.watermark.written.globalSequence
  | .batchClosed _ plan _ =>
      PlanOk v plan ∧ ∀ st ∈ plan.staged,
        st.globalSequence ≤ v.watermark.written.globalSequence
  | .batchCommitted _ plan _ => Publishable v.watermark (plan.firstSeq + plan.count)
      (batchFrontier plan.staged) (plan.staged.map (·.notification))

theorem StageOk.kept (h : StageKept v v') {stage : Stage} (hs : StageOk v stage) :
    StageOk v' stage := by
  have hplan : ∀ {plan}, PlanOk v plan → PlanOk v' plan :=
    fun hp => { hp with staging := hp.staging.kept h }
  have hsingle : ∀ {st : StagedCommittedEvent},
      AcceptedAt v.watermark st.frame.dagLane st.globalSequence ∧
        st.globalSequence = v.gate.allocated →
      AcceptedAt v'.watermark st.frame.dagLane st.globalSequence ∧
        st.globalSequence = v'.gate.allocated :=
    fun hst => ⟨hst.1.kept h, hst.2.trans h.allocated.symm⟩
  cases stage with
  | idle => trivial
  | accepted t keyed st length => exact hsingle hs
  | rotated t keyed st length => exact hsingle hs
  | written t keyed st pos => exact hsingle hs
  | committed t st pos => exact AcceptedAt.kept h hs
  | batchStaged t plan => exact hplan hs
  | batchRotated t plan marker length => exact hplan hs
  | batchSynced t plan receipts => exact hplan hs
  | batchOpen t plan receipts remaining =>
      obtain ⟨hp, hsub, hwritten⟩ := hs
      refine ⟨hplan hp, hsub, fun st hst => ?_⟩
      rcases hwritten st hst with hin | hle
      · exact .inl hin
      · exact .inr (Nat.le_trans hle h.written)
  | batchClosed t plan receipts =>
      exact ⟨hplan hs.1, fun st hst => Nat.le_trans (hs.2 st hst) h.written⟩
  | batchCommitted t plan receipts =>
      exact { hs with accepted := fun n hn => (hs.accepted n hn).kept h }

/-- Once all items are written, the sync of the batch overstates nothing. -/
theorem PlanOk.writtenCovers {plan : BatchPlan} (h : PlanOk s.frontier plan)
    (hwritten : ∀ st ∈ plan.staged,
      st.globalSequence ≤ s.frontier.watermark.written.globalSequence) : WrittenCovers s := by
  obtain ⟨st, hst, htop⟩ := h.staging.top h.nonempty
  have hlast := h.staging.last
  have hle := hwritten st hst
  have hpos : 0 < plan.staged.length := List.length_pos_of_ne_nil h.nonempty
  change s.frontier.watermark.accepted.globalSequence ≤
    s.frontier.watermark.written.globalSequence
  omega

/-- The state of the core together with what the command in progress relies on. -/
structure MachineSettled (start : Nat → Nat) (honest : Prop) (w₀ : WatermarkState)
    (m : WriterMachine) : Prop where
  core : FrontierSettled start honest w₀ m.core.frontier
  stage : StageOk m.core.frontier m.stage

theorem admitBatchKeys_frontier (items : List BatchAppendItem) (s : WriterCore) :
    (finalState (admitBatchKeys items s)).frontier = s.frontier := by
  unfold admitBatchKeys
  split <;> rfl

theorem replayKey_frontier (rt : Runtime) (req : AppendRequest) (s : WriterCore) :
    (finalState (replayKey rt req s)).frontier = s.frontier := by
  unfold replayKey
  cases req.idempotencyKey with
  | none => rfl
  | some key =>
      dsimp only
      unfold tryIdempotencyReplay
      split
      · rfl
      · split
        · rfl
        · split <;> rfl

/-- An operation that leaves the frontier alone. -/
theorem keeps_of_frontier {α : Type} {m : WriterM α}
    (h : ∀ s, (finalState (m s)).frontier = s.frontier) :
    Triple (fun s => P s.frontier) m (fun _ s => P s.frontier) (fun s => P s.frontier) := by
  intro s hs
  refine Post.of_finalState (I := fun s : WriterCore => P s.frontier) ?_
  rw [h s]
  exact hs

theorem startAppend_settled (rt : Runtime) (t : Ticket) (req : AppendRequest) :
    Triple (fun s => FrontierSettled start honest w₀ s.frontier) (startAppend rt t req)
      (fun r s => FrontierSettled start honest w₀ s.frontier ∧ ∀ st length, r = .inr (st, length) →
        AcceptedAt s.watermark st.frame.dagLane st.globalSequence ∧
          st.globalSequence = s.index.gate.allocated)
      (fun s => FrontierSettled start honest w₀ s.frontier) := by
  apply startAppend_rule (Q := fun st s => AcceptedAt s.watermark st.frame.dagLane
    st.globalSequence ∧ st.globalSequence = s.index.gate.allocated) t
    (keeps_of_frontier (replayKey_frontier rt req))
  intro s st hs hseq
  exact ⟨hs.accept st.frame.dagLane hseq.le, acceptedAt_accept _ _ st.point, hseq⟩

/-- One more item is staged. -/
theorem Staging.snoc (h : Staging v firstSeq staged) {st : StagedCommittedEvent}
    (hseq : st.globalSequence = firstSeq + staged.length) :
    Staging { v with watermark :=
        v.watermark.advanceAcceptedOnLane st.frame.dagLane st.point } firstSeq
      (staged ++ [st]) := by
  have hlength : (staged ++ [st]).length = staged.length + 1 := by simp
  refine ⟨?_, ?_, ?_, ?_, h.low⟩
  · intro st' hst'
    rw [hlength]
    rcases List.mem_append.mp hst' with hold | hnew
    · obtain ⟨hlow, hhigh⟩ := h.within st' hold
      exact ⟨hlow, Nat.lt_succ_of_lt hhigh⟩
    · obtain rfl := List.mem_singleton.mp hnew
      omega
  · intro _
    refine ⟨st, List.mem_append_right _ (List.mem_singleton_self st), ?_⟩
    rw [hlength, hseq]
    rfl
  · intro st' hst'
    rcases List.mem_append.mp hst' with hold | hnew
    · exact (h.accepted st' hold).mono (NotBackwards.accept _ _ _)
    · obtain rfl := List.mem_singleton.mp hnew
      exact acceptedAt_accept _ _ st'.point
  · rw [hlength]
    change (v.watermark.advanceAcceptedOnLane _ _).accepted.globalSequence ≤ _
    rw [WatermarkState.advanceAcceptedOnLane_accepted]
    have hlast := h.last
    refine Nat.max_le.mpr ⟨?_, ?_⟩
    · omega
    · change st.globalSequence ≤ _
      omega

theorem startBatch_settled (cfg : StoreConfig) (rt : Runtime) (t : Ticket) (nowUs : Int)
    (items : List BatchAppendItem) :
    Triple (fun s => FrontierSettled start honest w₀ s.frontier) (startBatch cfg rt t nowUs items)
      (fun r s => FrontierSettled start honest w₀ s.frontier ∧
        ∀ plan, r = .inr plan → PlanOk s.frontier plan)
      (fun s => FrontierSettled start honest w₀ s.frontier) := by
  refine Triple.onReturn (startBatch_rule
    (S := fun first staged s => Staging s.frontier first staged) cfg t nowUs
    (keeps_of_frontier (admitBatchKeys_frontier items)) ?_ ?_)
    fun r s hs => ⟨hs.1, fun plan hplan => ?_⟩
  -- a reservation gives the batch the sequences above everything accepted or published
  · intro s _ hs
    refine ⟨hs.reserve _, ⟨?_, ?_, ?_, ?_, hs.laneBound⟩⟩
    · intro st hst
      cases hst
    · intro hne
      exact absurd rfl hne
    · intro st hst
      cases hst
    · exact hs.accepted
  · intro s first staged st hs hstaging hseq hreserved
    exact ⟨hs.accept _ hreserved.le, hstaging.snoc hseq⟩
  · obtain ⟨hstaging, hcount, hne⟩ := hs.2 plan hplan
    exact ⟨hstaging, hcount, hne⟩

theorem writeFrame_frontier (flt : Faults) (i : Nat) (f : Frame) (length : Nat) (s : WriterCore) :
    (finalState (writeFrame flt i f length s)).frontier = s.frontier := by
  unfold writeFrame
  cases s.active.writeFrame f length (flt.write i) with
  | mk result seg => cases result <;> rfl

/-- Writing a staged event: the written point covers it afterwards. -/
theorem writeStaged_settled (flt : Faults) (i : Nat) (st : StagedCommittedEvent) (length : Nat)
    (hv : FrontierSettled start honest w₀ v)
    (hst : AcceptedAt v.watermark st.frame.dagLane st.globalSequence) :
    Triple (fun s => s.frontier = v) (writeStaged flt i st length)
      (fun _ s => FrontierSettled start honest w₀ s.frontier ∧ StageKept v s.frontier ∧
        st.globalSequence ≤ s.watermark.written.globalSequence)
      (fun s => FrontierSettled start honest w₀ s.frontier) := by
  refine Triple.bind (Triple.onError (keeps_of_frontier (P := fun v' => v' = v)
    (writeFrame_frontier flt i st.frame length)) ?_) fun offset => ?_
  · rintro s rfl
    exact hv
  · refine Triple.bind (Q := fun _ s => FrontierSettled start honest w₀ s.frontier ∧
      StageKept v s.frontier ∧ st.globalSequence ≤ s.watermark.written.globalSequence)
      (Triple.modify ?_) fun _ => Triple.pure fun s hs => hs
    rintro s rfl
    exact ⟨hv.write hst, StageKept.write _ _ _,
      HlcPoint.le_maxBySequence_right s.watermark.written st.point⟩

theorem placeAppend_settled (t : Ticket) (st : StagedCommittedEvent) (length : Nat)
    (hv : FrontierSettled start honest w₀ v)
    (hst : AcceptedAt v.watermark st.frame.dagLane st.globalSequence) :
    Triple (fun s => s.frontier = v) (placeAppend t st length)
      (fun _ s => FrontierSettled start honest w₀ s.frontier ∧ StageKept v s.frontier)
      (fun s => FrontierSettled start honest w₀ s.frontier) := by
  refine Triple.bind (writeStaged_settled t.faults 0 st length hv hst) fun offset => ?_
  refine checked (fun s hs => hs.1) fun _ => ?_
  refine Triple.bind (Q := fun _ s => FrontierSettled start honest w₀ s.frontier ∧
    StageKept v s.frontier) (Triple.get fun s hs => ⟨hs.1, hs.2.1⟩) fun s => ?_
  exact Triple.pure fun s hs => hs

theorem writeBatchEventFrame_settled (rt : Runtime) (flt : Faults) (idx : Nat)
    (st : StagedCommittedEvent) (hv : FrontierSettled start honest w₀ v)
    (hst : AcceptedAt v.watermark st.frame.dagLane st.globalSequence) :
    Triple (fun s => s.frontier = v) (writeBatchEventFrame rt flt idx st)
      (fun _ s => FrontierSettled start honest w₀ s.frontier ∧ StageKept v s.frontier ∧
        st.globalSequence ≤ s.watermark.written.globalSequence)
      (fun s => FrontierSettled start honest w₀ s.frontier) := by
  have hsame : ∀ s : WriterCore, s.frontier = v → FrontierSettled start honest w₀ s.frontier := by
    rintro s rfl
    exact hv
  refine batchFailedAt_triple idx ?_
  refine checked hsame fun _ => ?_
  refine checked hsame fun length => ?_
  refine Triple.bind (writeStaged_settled flt (idx + 1) st length hv hst) fun offset => ?_
  refine checked (fun s hs => hs.1) fun _ => ?_
  refine Triple.read fun s => ?_
  exact Triple.pure fun s hs => hs

theorem writeCommitMarker_frontier (cfg : StoreConfig) (rt : Runtime) (flt : Faults)
    (i batchId : Nat) (nowUs : Int) (idx : Nat) :
    Keeps (fun s => P s.frontier)
      (writeBatchMarkerFrame cfg rt flt i batchId .systemBatchCommit 0 nowUs idx false) := by
  refine batchFailedAt_triple idx ?_
  refine Keeps.bind (liftExcept_keeps _) fun nowMs => ?_
  refine Keeps.bind (liftExcept_keeps _) fun length => ?_
  refine Keeps.bind (Keeps.pure false) fun _ => ?_
  exact keeps_of_frontier (writeFrame_frontier flt i _ length)

theorem commitStaged_settled (flt : Faults) (keyed : Bool) (st : StagedCommittedEvent)
    (pos : DiskPos) (hv : FrontierSettled start honest w₀ v)
    (hst : AcceptedAt v.watermark st.frame.dagLane st.globalSequence)
    (hseq : st.globalSequence = v.gate.allocated) :
    Triple (fun s => s.frontier = v) (commitStaged flt keyed st pos)
      (fun _ s => FrontierSettled start honest w₀ s.frontier ∧
        AcceptedAt s.watermark st.frame.dagLane st.globalSequence)
      (fun s => FrontierSettled start honest w₀ s.frontier) := by
  rintro s rfl
  rcases commitStaged_eq flt keyed st pos s with ⟨e, he⟩ | hok
  · rw [he]
    exact hv
  · rw [hok]
    refine ⟨?_, hst⟩
    have hinsert : FrontierSettled start honest w₀
        { s.frontier with entries := [st.indexEntry pos] ++ s.frontier.entries } := by
      apply hv.insert
      intro e he
      obtain rfl := List.mem_singleton.mp he
      exact Nat.le_trans (hv.laneBound _) (Nat.le_of_eq hseq.symm)
    exact hinsert.reserve 1

theorem recordSidxEntries_frontier (flt : Faults) (rows : List SidxEntry) :
    ∀ idx, Keeps (fun s => P s.frontier) (recordSidxEntries flt idx rows) := by
  induction rows with
  | nil => exact fun idx => Keeps.pure ()
  | cons row rest ih =>
      intro idx
      refine Keeps.bind (liftExcept_keeps _) fun _ => ?_
      refine Keeps.bind (keeps_of_frontier fun s => rfl) fun _ => ?_
      exact ih (idx + 1)

/-- The items of a batch are indexed above every lane bound. -/
theorem commitBatch_settled (flt : Faults) (keyed : Bool) {plan : BatchPlan}
    (receipts : List AppendReceipt) (hv : FrontierSettled start honest w₀ v) (hplan : PlanOk v plan) :
    Triple (fun s => s.frontier = v) (commitBatch flt keyed plan.staged receipts)
      (fun _ s => FrontierSettled start honest w₀ s.frontier ∧
        Publishable s.watermark (plan.firstSeq + plan.count) (batchFrontier plan.staged)
          (plan.staged.map (·.notification)))
      (fun s => FrontierSettled start honest w₀ s.frontier) := by
  have hsame : ∀ s : WriterCore, s.frontier = v → FrontierSettled start honest w₀ s.frontier := by
    rintro s rfl
    exact hv
  refine checked hsame fun _ => ?_
  refine Triple.bind (Triple.onError (recordSidxEntries_frontier flt _ (P := fun v' => v' = v) 0)
    hsame) fun _ => ?_
  refine Triple.modify ?_
  rintro s rfl
  refine ⟨?_, ?_⟩
  · unfold WriterCore.frontier
    dsimp only
    rw [StoreIndex.insertBatch_inserted, StoreIndex.insertBatch_gate]
    refine hv.insert fun e he => ?_
    rw [List.mem_reverse] at he
    obtain ⟨p, hp, rfl⟩ := List.mem_map.mp he
    have hmem : p.1 ∈ plan.staged := (List.of_mem_zip hp).1
    exact Nat.le_trans (hplan.staging.low _) (hplan.staging.within p.1 hmem).1
  · have hpub := hplan.staging.publishable hplan.nonempty
    rw [hplan.count] at hpub
    exact hpub

/-! ### One step of the machine -/

/-- The rotation check leaves the segment alone, or its sync overstates nothing. -/
def RotationSafe (cfg : StoreConfig) (flt : Faults) (s : WriterCore) : Prop :=
  RotationQuiet cfg flt s ∨ WrittenCovers s

/-- The steps that keep the durable point behind the written one: whenever a sync succeeds,
everything accepted has been written. -/
def CoveredStep (cfg : StoreConfig) (m : WriterMachine) : MachineStep → Prop
  | .start (.command loop q) =>
      commandSyncs loop q.command = true → SyncSafe q.faults.sync m.core
  | .start (.periodicSync fails) => SyncSafe fails m.core
  | .start (.completeShutdown _ flt) => SyncSafe flt.sync m.core
  | .advance =>
      match m.stage with
      | .accepted t .. => RotationSafe cfg t.faults m.core
      | .batchStaged t _ => RotationSafe cfg t.faults m.core
      | _ => True

theorem maybeRotateSegment_settled (cfg : StoreConfig) (flt : Faults)
    (hv : FrontierSettled start honest w₀ v) (hs : s.frontier = v)
    (hsafe : honest → RotationSafe cfg flt s) :
    Post (fun _ s' => FrontierSettled start honest w₀ s'.frontier ∧ StageKept v s'.frontier)
      (fun s' => FrontierSettled start honest w₀ s'.frontier) (maybeRotateSegment cfg flt s) := by
  apply Post.of_final _ fun s' h => h.1
  subst hs
  rcases maybeRotateSegment_frontier cfg flt s with hsame | ⟨hrotates, hsynced⟩
  · rw [hsame]
    exact ⟨hv, .refl _⟩
  · rw [hsynced]
    refine ⟨hv.sync fun hh => ?_, .synced _⟩
    exact (hsafe hh).resolve_left hrotates

theorem deliver_frontier (t : Ticket) (reply : Reply) (pending : PendingFenceResponse)
    (s : WriterCore) : (deliver t reply pending s).frontier = s.frontier := by
  unfold deliver
  cases t.token with
  | none => rfl
  | some token =>
      unfold WriterCore.frontier
      dsimp only
      rw [Option.map_map]
      rfl

/-- Publication ends a command. -/
theorem publish_phase_settled {fenced : Bool} {first : Nat} {f : WriterCore → WriterCore}
    (hf : ∀ s, (f s).frontier = s.frontier) (h : FrontierSettled start honest w₀ s.frontier)
    (hpub : Publishable s.watermark upTo point ns) :
    Post (fun stage s => FrontierSettled start honest w₀ s.frontier ∧ StageOk s.frontier stage)
      (fun s => FrontierSettled start honest w₀ s.frontier)
      ((do publishCommitted fenced first upTo point ns; modify f; return Stage.idle) s) := by
  have hkeeps : Triple (fun s' => s' = s) (publishCommitted fenced first upTo point ns)
      (fun _ s => FrontierSettled start honest w₀ s.frontier)
      (fun s => FrontierSettled start honest w₀ s.frontier) := by
    rintro s rfl
    exact Post.of_finalState (publishCommitted_settled fenced h hpub)
  refine (Triple.bind hkeeps fun _ => ?_) s rfl
  refine Triple.bind (keeps_of_frontier hf) fun _ => ?_
  exact Triple.pure fun s hs => ⟨hs, trivial⟩

/-- Each phase keeps the frontier settled, one case per stage. -/
theorem phase_settled (cfg : StoreConfig) (rt : Runtime) {m : WriterMachine}
    (h : MachineSettled start honest w₀ m) (hstep : honest → CoveredStep cfg m .advance) :
    Post (fun stage s => FrontierSettled start honest w₀ s.frontier ∧ StageOk s.frontier stage)
      (fun s => FrontierSettled start honest w₀ s.frontier) (phase cfg rt m.stage m.core) := by
  obtain ⟨core, stage⟩ := m
  obtain ⟨hcore, hstage⟩ := h
  cases stage with
  | idle => exact ⟨hcore, trivial⟩
  | accepted t keyed st length =>
      refine (Triple.bind (P := fun s => s = core) (Q := fun _ s =>
        FrontierSettled start honest w₀ s.frontier ∧ StageKept core.frontier s.frontier) ?_
        fun _ => ?_) core rfl
      · rintro s rfl
        exact maybeRotateSegment_settled cfg t.faults hcore rfl hstep
      · exact Triple.pure fun s hs => ⟨hs.1, StageOk.kept hs.2 hstage⟩
  | rotated t keyed st length =>
      refine (Triple.bind (placeAppend_settled t st length hcore hstage.1) fun pos => ?_) core rfl
      exact Triple.pure fun s hs => ⟨hs.1, StageOk.kept hs.2 hstage⟩
  | written t keyed st pos =>
      refine (Triple.bind (commitStaged_settled t.faults keyed st pos hcore hstage.1 hstage.2)
        fun _ => ?_) core rfl
      exact Triple.pure fun s hs => hs
  | committed t st pos =>
      apply publish_phase_settled (deliver_frontier t _ _) hcore
      have hsingle : ∀ n ∈ [st.notification], n = st.notification :=
        fun n hn => List.mem_singleton.mp hn
      refine ⟨⟨st.notification, List.mem_singleton_self _, rfl⟩, ?_, Nat.lt_succ_self _, ?_⟩
      · intro n hn
        rw [hsingle n hn]
        exact Nat.lt_succ_self _
      · intro n hn
        rw [hsingle n hn]
        exact hstage
  | batchStaged t plan =>
      refine (Triple.bind (P := fun s => s = core) (Q := fun _ s =>
        FrontierSettled start honest w₀ s.frontier ∧ StageKept core.frontier s.frontier) ?_
        fun p => ?_) core rfl
      · have hsame : ∀ s, s = core → FrontierSettled start honest w₀ s.frontier := by
          rintro s rfl
          exact hcore
        refine batchFailedAt_triple 0 ?_
        refine checked hsame fun nowMs => ?_
        refine checked hsame fun length => ?_
        refine Triple.bind (Q := fun _ s => FrontierSettled start honest w₀ s.frontier ∧
          StageKept core.frontier s.frontier) ?_ fun _ => Triple.pure fun s hs => hs
        rintro s rfl
        exact maybeRotateSegment_settled cfg t.faults hcore rfl hstep
      · exact Triple.pure fun s hs => ⟨hs.1, StageOk.kept hs.2 hstage⟩
  | batchRotated t plan marker length =>
      have hplan : PlanOk core.frontier plan := hstage
      refine (Triple.bind (Triple.onError (batchFailedAt_triple 0
        (keeps_of_frontier (P := fun v => FrontierSettled start honest w₀ v ∧ PlanOk v plan)
        (writeFrame_frontier t.faults 0 marker length))) fun s hs => hs.1) fun _ => ?_) core
        ⟨hcore, hplan⟩
      exact Triple.pure fun s hs => ⟨hs.1, hs.2, fun st hst => hst, fun st hst => .inl hst⟩
  | batchOpen t plan receipts remaining =>
      obtain ⟨hplan, hsub, hwritten⟩ := hstage
      cases remaining with
      | cons st rest =>
          have hmem : st ∈ plan.staged := hsub st List.mem_cons_self
          refine (Triple.bind (writeBatchEventFrame_settled rt t.faults receipts.length st hcore
            (hplan.staging.accepted st hmem)) fun r => ?_) core rfl
          refine Triple.pure fun s hs => ⟨hs.1, ?_⟩
          obtain ⟨-, hkept, hle⟩ := hs
          refine ⟨{ hplan with staging := hplan.staging.kept hkept },
            fun st' hst' => hsub st' (List.mem_cons_of_mem _ hst'), fun st' hst' => ?_⟩
          rcases hwritten st' hst' with hin | hbelow
          · rcases List.mem_cons.mp hin with rfl | hin
            · exact .inr hle
            · exact .inl hin
          · exact .inr (Nat.le_trans hbelow hkept.written)
      | nil =>
          have hall : ∀ st ∈ plan.staged,
              st.globalSequence ≤ core.frontier.watermark.written.globalSequence :=
            fun st hst => (hwritten st hst).resolve_left (fun hnil => by cases hnil)
          refine (Triple.bind (Triple.onError (writeCommitMarker_frontier cfg rt t.faults
            (plan.count + 1) plan.firstSeq plan.nowUs (plan.count - 1)
            (P := fun v => FrontierSettled start honest w₀ v ∧ PlanOk v plan ∧ ∀ st ∈ plan.staged,
            st.globalSequence ≤ v.watermark.written.globalSequence)) fun s hs => hs.1) fun _ => ?_)
            core ⟨hcore, hplan, hall⟩
          exact Triple.pure fun s hs => hs
  | batchClosed t plan receipts =>
      obtain ⟨hplan, hwritten⟩ := hstage
      have hcovers := hplan.writtenCovers hwritten
      refine (Triple.bind (P := fun s => s = core) (Q := fun _ s =>
        FrontierSettled start honest w₀ s.frontier ∧ StageKept core.frontier s.frontier) ?_
        fun _ => ?_) core rfl
      · rintro s rfl
        apply post_syncBatch (Post.of_final _ fun s' h => h.1)
        refine ⟨syncActiveSegment_settled t.faults hcore fun _ => .inr hcovers, ?_⟩
        rcases syncActiveSegment_frontier t.faults s with ⟨-, hsame⟩ | hsynced
        · rw [hsame]
          exact .refl _
        · rw [hsynced]
          exact .synced _
      · refine Triple.pure fun s hs => ⟨hs.1, ?_⟩
        exact StageOk.kept hs.2 (show StageOk _ (.batchSynced t plan receipts) from hplan)
  | batchSynced t plan receipts =>
      refine (Triple.bind (commitBatch_settled t.faults plan.keyed receipts hcore hstage)
        fun _ => ?_) core rfl
      exact Triple.pure fun s hs => hs
  | batchCommitted t plan receipts =>
      exact publish_phase_settled (deliver_frontier t _ _) hcore hstage

/-- What the service commands do to the frontier. -/
theorem settled_service : ServiceRules (fun s => FrontierSettled start honest w₀ s.frontier)
    fun fails s => honest → SyncSafe fails s where
  reply _ _ hs := hs
  beginFence token hs := beginVisibilityFence_settled token hs
  commitFence token hs := commitVisibilityFence_settled token hs
  cancelFence flt token hs := cancelVisibilityFence_settled flt token hs
  autoCancel flt hs := autoCancelFenceOnShutdown_settled flt hs
  footer hs := hs
  sync flt hs hsafe := syncActiveSegment_settled flt hs hsafe
  syncAfterCancel fails flt hsafe hh := by
    have hsame := autoCancelFenceOnShutdown_watermark flt
    unfold SyncSafe WrittenCovers at *
    rw [hsame]
    exact hsafe hh
  syncAfterFooter _ hsafe := hsafe

theorem settledRules (cfg : StoreConfig) (rt : Runtime) :
    MachineRules cfg rt (fun s => FrontierSettled start honest w₀ s.frontier)
      (fun s stage => StageOk s.frontier stage)
      (fun s stage => honest → CoveredStep cfg ⟨s, stage⟩ .advance)
      (fun fails s => honest → SyncSafe fails s) where
  service := settled_service
  idle _ := trivial
  deliver t reply pending hs := by
    rw [deliver_frontier]
    exact hs
  startAppend t req := by
    refine Triple.onReturn (startAppend_settled rt t req) ?_
    exact fun r s hs => ⟨hs.1, fun keyed st length h => hs.2 st length h⟩
  startBatch := startBatch_settled cfg rt
  phase hcore hstage hstep := phase_settled cfg rt (m := ⟨_, _⟩) ⟨hcore, hstage⟩ hstep

/-- Every step of the writer keeps the frontier settled. -/
theorem machineStep_settled (cfg : StoreConfig) (rt : Runtime) {m : WriterMachine}
    (step : MachineStep) (h : MachineSettled start honest w₀ m)
    (hstep : honest → CoveredStep cfg m step) :
    MachineSettled start honest w₀ (machineStep cfg rt m step) := by
  have hallowed : StepAllowed (fun fails s => honest → SyncSafe fails s)
      (fun s stage => honest → CoveredStep cfg ⟨s, stage⟩ .advance) m step := by
    cases step with
    | advance => exact hstep
    | start action =>
        cases action with
        | command loop q => exact fun hsyncs hh => hstep hh hsyncs
        | periodicSync fails => exact hstep
        | completeShutdown respond flt => exact hstep
  obtain ⟨hcore, hstage⟩ :=
    (settledRules cfg rt).machineStep step (m := m) ⟨h.core, h.stage⟩ hallowed
  exact ⟨hcore, hstage⟩

end Operations

end Batpak.Store
