/-
Module: Batpak.Proofs.FrontierRuns
Purpose: The frontier of every run of an opened store: it agrees with the sequence gate, never
  moves backwards and, under honest syncs, keeps its order.
Trusted boundary: none
Main exports: visible_matches_gate, watermark_lattice_of_covered_run
-/
import Batpak.Proofs.FrontierInvariant
import Batpak.Proofs.ProjectionProgress
import Batpak.Proofs.RestoredIndex

namespace Batpak.Store

open Batpak.Util

/-! ### The open event -/

/-- The append of an event nobody has seen: it takes the next sequence and is published on
lane zero. -/
structure OpenAppended (s s' : WriterCore) (e : IndexEntry) : Prop where
  inserted : s'.index.inserted = e :: s.index.inserted
  sequence : e.globalSequence = s.index.gate.allocated
  lane : e.dagLane = 0
  allocated : s'.index.gate.allocated = s.index.gate.allocated + 1
  visible : s'.index.gate.visible = s.index.gate.allocated + 1
  laneVisible : ∀ lane, s'.index.gate.laneVisible lane =
    if lane = 0 then s.index.gate.allocated + 1 else s.index.gate.laneVisible lane
  fenceLedger : s'.fenceLedger = s.fenceLedger

theorem publishAppend_ok {st : StagedCommittedEvent} {pos : DiskPos} {s s' : WriterCore}
    {receipt : AppendReceipt} (h : publishAppend false st pos s = .ok receipt s') :
    receipt = { st.receipt with diskPos := pos } ∧ s'.index.inserted = s.index.inserted ∧
      s'.fenceLedger = s.fenceLedger ∧ s'.index.gate.allocated = s.index.gate.allocated ∧
      s'.index.gate.visible = st.globalSequence + 1 ∧
      ∀ lane, s'.index.gate.laneVisible lane =
        if lane = st.frame.dagLane then st.globalSequence + 1
        else s.index.gate.laneVisible lane := by
  obtain ⟨u, s₁, hpublish, hreturn⟩ := bind_eq_ok.mp h
  cases hreturn
  change publishThenBroadcastUnfenced (st.globalSequence + 1) st.point [st.notification] s =
    .ok u s' at hpublish
  unfold publishThenBroadcastUnfenced at hpublish
  cases hgate : s.index.gate.publishOnLanes (st.globalSequence + 1) (laneBounds [st.notification])
      "publish_then_broadcast_unfenced" with
  | error e =>
      rw [hgate] at hpublish
      cases hpublish
  | ok gate =>
      rw [hgate] at hpublish
      obtain ⟨-, -, rfl⟩ := SequenceGate.publishOnLanes_ok hgate
      cases hpublish
      refine ⟨rfl, rfl, rfl, rfl, rfl, fun lane => ?_⟩
      by_cases hlane : lane = st.frame.dagLane
      · subst hlane
        rw [if_pos rfl]
        exact Function.update_self ..
      · rw [if_neg hlane]
        exact Function.update_of_ne hlane ..

/-- The open event is new, so its append commits it. -/
theorem openAppend_ok {cfg : StoreConfig} {rt : Runtime} {flt : Faults} {eventId : Nat}
    {report : Bytes} {candidate : HlcPoint} {s s' : WriterCore} {receipt : AppendReceipt}
    (hnew : UnknownKey s.index eventId)
    (h : handleAppend cfg rt flt (openCompletedRequest eventId report candidate) false s =
      .ok receipt s') :
    ∃ e, OpenAppended s s' e ∧ e.eventId = receipt.eventId := by
  have hcases := handleAppend_cases cfg rt flt (openCompletedRequest eventId report candidate)
    false s
  rw [h] at hcases
  generalize hres : (EStateM.Result.ok receipt s' : EStateM.Result StoreError WriterCore _) = res
    at hcases
  cases hcases with
  | failed e s₁ quiet => cases hres
  | replayed key receipt₁ keyed guarded known =>
      obtain rfl : eventId = key := Option.some.inj keyed
      rcases known with ⟨durable, hdurable, -⟩ | ⟨entry, -, hentry, -⟩
      · rw [hnew.1] at hdurable
        cases hdurable
      · rw [hnew.2] at hentry
        cases hentry
  | committed st pos s₀ s₁ quiet guarded fresh sameSegment prepared =>
      obtain ⟨hreceipt, hinserted, hledger, hallocated, hvisible, hlanes⟩ :=
        publishAppend_ok hres.symm
      obtain ⟨-, -, hlane, hid, hseq, -⟩ := stageAppend_ok prepared.staged
      have hgate : s₁.index.gate = s.index.gate := by
        rw [prepared.diskOnly.index, quiet.gate]
        rfl
      have hseq' : st.globalSequence = s.index.gate.allocated := by
        rw [hseq]
        change s₀.index.gate.allocated = _
        rw [quiet.gate]
        rfl
      refine ⟨st.indexEntry pos, ⟨?_, hseq', hlane, ?_, ?_, fun lane => ?_, ?_⟩, ?_⟩
      · rw [hinserted]
        change _ :: s₁.index.inserted = _
        rw [prepared.diskOnly.index, quiet.inserted]
      · rw [hallocated]
        change s₁.index.gate.allocated + 1 = _
        rw [hgate]
      · rw [hvisible, hseq']
      · rw [hlanes, hlane, hseq']
        change (if lane = 0 then _ else s₁.index.gate.laneVisible lane) = _
        rw [hgate]
      · exact hledger.trans (prepared.diskOnly.fenceLedger.trans quiet.fenceLedger)
      · rw [hreceipt]
        exact (stageAppend_reported prepared.staged).1.symm

/-- A store opened from `s`: the open event is indexed and published, and the watermarks
restart from it. -/
structure OpenedFrom (s core : WriterCore) (e : IndexEntry) : Prop where
  appended : OpenAppended s core e
  watermark : ∃ w : WatermarkState, core.watermark = w.resetToBootstrapLanes e.point e.point
    (highestHlcByLane core.index.allEntries) (highestHlcByLane core.index.visibleEntries)

theorem completeOpen_ok {cfg : StoreConfig} {rt : Runtime} {inputs : OpenInputs}
    {s core : WriterCore} (hnew : UnknownKey s.index inputs.eventId)
    (h : completeOpen cfg rt inputs s = .ok () core) : ∃ e, OpenedFrom s core e := by
  obtain ⟨s₁, s₁', hget, h₁⟩ := bind_eq_ok.mp h
  cases hget
  obtain ⟨lastClose, s₂, hclose, h₂⟩ := bind_eq_ok.mp h₁
  obtain ⟨-, rfl⟩ := liftExcept_eq_ok hclose
  obtain ⟨u, s₃, hvalid, h₃⟩ := bind_eq_ok.mp h₂
  obtain ⟨-, rfl⟩ := liftExcept_eq_ok hvalid
  obtain ⟨receipt, s₄, happend, h₄⟩ := bind_eq_ok.mp h₃
  obtain ⟨e, happended, hid⟩ := openAppend_ok hnew happend
  obtain ⟨s₅, s₅', hget, h₅⟩ := bind_eq_ok.mp h₄
  cases hget
  obtain ⟨entry, s₆, hentry, h₆⟩ := bind_eq_ok.mp h₅
  obtain ⟨hfound, rfl⟩ := liftExcept_eq_ok hentry
  obtain ⟨lastClose', s₇, hclose', h₇⟩ := bind_eq_ok.mp h₆
  obtain ⟨-, rfl⟩ := liftExcept_eq_ok hclose'
  obtain ⟨v, s₈, hvalid', h₈⟩ := bind_eq_ok.mp h₇
  obtain ⟨-, rfl⟩ := liftExcept_eq_ok hvalid'
  obtain ⟨x, s₉, hsync, h₉⟩ := bind_eq_ok.mp h₈
  cases h₉
  have hbyId : s₈.index.byId receipt.eventId = some e := by
    unfold StoreIndex.byId
    rw [happended.inserted, List.find?_cons]
    simp [hid]
  have heq : entry = e := by
    cases hlookup : s₈.index.getById receipt.eventId with
    | none =>
        rw [hlookup] at hfound
        cases hfound
    | some found =>
        rw [hlookup] at hfound
        obtain rfl := Except.ok.inj hfound
        unfold StoreIndex.getById at hlookup
        rw [hbyId] at hlookup
        exact (Option.some.inj (Option.filter_eq_some_iff.mp hlookup).1).symm
  obtain ⟨w, hs₉⟩ : ∃ w active, s₉ = { s₈ with watermark := w, active := active } := by
    unfold syncActiveSegment at hsync
    split at hsync
    · cases hsync
    · cases hsync
      exact ⟨_, _, rfl⟩
  obtain ⟨active, rfl⟩ := hs₉
  subst heq
  refine ⟨entry, ⟨happended.inserted, happended.sequence, happended.lane, happended.allocated,
    happended.visible, happended.laneVisible, happended.fenceLedger⟩, w, rfl⟩

theorem highestHlc_le {entries : List IndexEntry} {bound : Nat}
    (h : ∀ e ∈ entries, e.globalSequence ≤ bound) : (highestHlc entries).globalSequence ≤ bound := by
  have hfold : ∀ (l : List IndexEntry) (p : HlcPoint), p.globalSequence ≤ bound →
      (∀ e ∈ l, e.globalSequence ≤ bound) →
      (l.foldl (fun best e => best.maxBySequence e.point) p).globalSequence ≤ bound := by
    intro l
    induction l with
    | nil => exact fun p hp _ => hp
    | cons e rest ih =>
        intro p hp hl
        apply ih _ (HlcPoint.maxBySequence_le hp (hl e List.mem_cons_self))
        exact fun e' he' => hl e' (List.mem_cons_of_mem _ he')
  exact hfold entries .origin (Nat.zero_le _) h

theorem le_highestHlc {entries : List IndexEntry} {e : IndexEntry} (he : e ∈ entries) :
    e.globalSequence ≤ (highestHlc entries).globalSequence := by
  have hstart : ∀ (l : List IndexEntry) (p : HlcPoint), p.globalSequence ≤
      (l.foldl (fun best e => best.maxBySequence e.point) p).globalSequence := by
    intro l
    induction l with
    | nil => exact fun p => Nat.le_refl _
    | cons e rest ih => exact fun p => Nat.le_trans (HlcPoint.le_maxBySequence_left _ _) (ih _)
  have hfold : ∀ (l : List IndexEntry) (p : HlcPoint), e ∈ l → e.globalSequence ≤
      (l.foldl (fun best e => best.maxBySequence e.point) p).globalSequence := by
    intro l
    induction l with
    | nil => exact fun p hmem => by cases hmem
    | cons e' rest ih =>
        intro p hmem
        rcases List.mem_cons.mp hmem with rfl | hmem
        · exact Nat.le_trans (HlcPoint.le_maxBySequence_right p e.point) (hstart rest _)
        · exact ih _ hmem
  exact hfold entries .origin he

/-- The recovered state an open starts from: nothing at or above the allocator. -/
structure RecoveredState (s : WriterCore) : Prop where
  entries : ∀ e ∈ s.index.inserted, e.globalSequence < s.index.gate.allocated
  lanes : ∀ lane, s.index.gate.laneVisible lane ≤ s.index.gate.allocated
  fenceLedger : s.fenceLedger = none

theorem OpenedFrom.settled {s core : WriterCore} {e : IndexEntry} (h : OpenedFrom s core e)
    (hs : RecoveredState s) {honest : Prop}
    (hunique : honest → ∀ e ∈ core.index.inserted, Unshadowed core.index.inserted e) :
    FrontierSettled core.index.gate.laneVisible honest core.watermark core.frontier := by
  have happ := h.appended
  obtain ⟨w, hw⟩ := h.watermark
  have hseq : e.point.globalSequence = s.index.gate.allocated := happ.sequence
  have hentries : ∀ x ∈ core.index.inserted, x.globalSequence ≤ s.index.gate.allocated := by
    intro x hx
    rw [happ.inserted] at hx
    rcases List.mem_cons.mp hx with rfl | hx
    · exact Nat.le_of_eq happ.sequence
    · exact Nat.le_of_lt (hs.entries x hx)
  have hvisible : ∀ lane, (highestHlcByLane core.index.visibleEntries lane).globalSequence ≤
      core.index.gate.laneVisible lane - 1 := by
    intro lane
    apply highestHlc_le
    intro x hx
    obtain ⟨hx, hlane⟩ := List.mem_filter.mp hx
    obtain ⟨-, hshown⟩ := List.mem_filter.mp hx
    have hlane : x.dagLane = lane := by simpa using hlane
    have hlt : x.globalSequence < core.index.gate.laneVisible x.dagLane := by
      simp only [SequenceGate.isVisibleOnLane, Bool.and_eq_true, decide_eq_true_eq] at hshown
      exact hshown.1.1
    rw [hlane] at hlt
    exact Nat.le_sub_one_of_lt hlt
  have hbyLane : ∀ (entries : List IndexEntry), (∀ x ∈ entries, x ∈ core.index.inserted) →
      ∀ lane, (highestHlcByLane entries lane).globalSequence ≤ s.index.gate.allocated :=
    fun entries hsub lane => highestHlc_le fun x hx =>
      hentries x (hsub x (List.mem_of_mem_filter hx))
  have hall := hbyLane core.index.allEntries fun x hx => List.mem_of_mem_filter hx
  have hvis := hbyLane core.index.visibleEntries fun x hx =>
    List.mem_of_mem_filter (List.mem_of_mem_filter hx)
  have hlaneBound : ∀ lane, core.index.gate.laneVisible lane ≤ core.index.gate.allocated := by
    intro lane
    rw [happ.laneVisible, happ.allocated]
    split
    · exact Nat.le_refl _
    · exact Nat.le_succ_of_le (hs.lanes lane)
  refine {
    marks := ?_
    since := .refl _
    applied := fun _ => ?_
    durable := fun _ => ?_
    accepted := ?_
    visible := ?_
    bound := ?_
    lane := fun lane => .inl rfl
    laneBelow := fun lane => ?_
    laneBound := hlaneBound
    shown := fun x hx hknown hshown => ?_
    held := fun fence hfence => ?_ }
  · change FrontierMarks core.watermark
    rw [hw]
    refine ⟨Nat.le_refl _, Nat.le_refl _, Nat.le_refl _, fun lane => ?_, fun lane => ?_,
      fun lane => ?_⟩
    · exact ⟨Nat.le_refl _, Nat.le_refl _, HlcPoint.le_maxBySequence_right _ _, Nat.le_refl _⟩
    · apply HlcPoint.maxBySequence_le
      · exact Nat.le_trans (hall lane) (Nat.le_of_eq hseq.symm)
      · exact Nat.le_trans (hvis lane) (Nat.le_of_eq hseq.symm)
    · exact Nat.le_trans (hvis lane) (Nat.le_of_eq hseq.symm)
  · change AppliedBehind core.watermark
    rw [hw]
    exact ⟨Nat.le_refl _, fun lane => Nat.le_refl _⟩
  · change core.watermark.durable.globalSequence ≤ core.watermark.written.globalSequence
    rw [hw]
    exact Nat.le_refl _
  · change core.watermark.accepted.globalSequence ≤ core.index.gate.allocated
    rw [hw, happ.allocated]
    exact Nat.le_succ_of_le (Nat.le_of_eq hseq)
  · change core.index.gate.visible = core.watermark.visible.globalSequence + 1
    rw [hw, happ.visible]
    exact congrArg (· + 1) hseq.symm
  · change core.index.gate.visible ≤ core.index.gate.allocated
    rw [happ.visible, happ.allocated]
  · change (core.watermark.lanes lane).visible.globalSequence ≤ _
    rw [hw]
    exact hvisible lane
  · change x.globalSequence ≤ (core.watermark.lanes x.dagLane).visible.globalSequence
    rw [hw]
    have hfound : Unshadowed core.index.inserted x := hknown.elim (fun hh => hunique hh x hx) id
    apply le_highestHlc
    refine List.mem_filter.mpr ⟨List.mem_filter.mpr ⟨List.mem_filter.mpr ⟨hx, ?_⟩, hshown⟩, ?_⟩
    · rw [show core.index.byId x.eventId = some x from hfound]
      exact beq_self_eq_true _
    · exact decide_eq_true rfl
  · rw [WriterCore.frontier, happ.fenceLedger, hs.fenceLedger] at hfence
    cases hfence

/-- The event id an open draws is not in use yet. -/
def OpenIdNew (cfg : LifecycleConfig) (rt : Runtime) (inputs : OpenInputs)
    (segments : List Segment) (ranges : Option CancelledVisibilityRanges) (side : SideFiles) :
    Prop :=
  ∀ index, openIndex rt cfg.retention cfg.overflow side.snapshot side.idemp ranges segments =
    .ok index → UnknownKey index inputs.eventId

theorem openStore_openedFrom {cfg : LifecycleConfig} {rt : Runtime} {inputs : OpenInputs}
    {segments : List Segment} {ranges : Option CancelledVisibilityRanges} {side : SideFiles}
    {fences : FenceHistory} {core : WriterCore}
    (hopen : (openStore cfg rt inputs segments ranges side fences).core? = some core)
    (hnew : OpenIdNew cfg rt inputs segments ranges side) :
    ∃ s e, OpenedFrom s core e ∧ RecoveredState s := by
  unfold openStore at hopen
  cases hindex : openIndex rt cfg.retention cfg.overflow side.snapshot side.idemp ranges
      segments with
  | error e =>
      rw [hindex] at hopen
      cases hopen
  | ok index =>
      rw [hindex] at hopen
      dsimp only at hopen
      cases hcomplete : completeOpen cfg.store rt inputs
          (spawnStore cfg index segments ranges fences) with
      | error e core' =>
          rw [hcomplete] at hopen
          cases hopen
      | ok u core' =>
          rw [hcomplete] at hopen
          obtain rfl := Option.some.inj hopen
          obtain ⟨e, hopened⟩ := completeOpen_ok (hnew index hindex) hcomplete
          refine ⟨_, e, hopened, ?_⟩
          obtain ⟨entries, hint, hplan, hrestored⟩ := openIndex_restored hindex
          have hrules : ScanRules (fun _ => True) segments :=
            @scanRules_provenance (fun _ => True) segments (fun _ _ _ _ => trivial)
              fun _ _ _ _ _ _ => trivial
          have hsorted := (@restorePlan_of (fun _ => True) _ _ _ _ _ (fun _ _ _ _ => trivial)
            hrules hplan).sorted
          have hbelow : ∀ x ∈ entries, x.globalSequence < index.gate.allocated := by
            intro x hx
            rw [hrestored.gate.allocated]
            exact lt_nextSequence hint hsorted hx
          refine ⟨fun x hx => ?_, fun lane => ?_, rfl⟩
          · change x ∈ index.inserted at hx
            rw [hrestored.inserted, List.mem_reverse] at hx
            exact hbelow x hx
          · change index.gate.laneVisible lane ≤ index.gate.allocated
            rw [hrestored.gate.laneVisible]
            exact laneVisibleFromEntries_le hbelow lane

/-! ### Steps -/

/-- The invariant of a run. -/
structure FrontierOk (start : Nat → Nat) (honest : Prop) (m : FrontierMachine) : Prop where
  machine : MachineSettled start honest m.watermark m.machine
  registry : honest → RegistryOk m.registry m.watermark

/-- The steps that keep the durable point behind the written one. -/
def CoveredFrontier (cfg : StoreConfig) (m : FrontierMachine) : FrontierStep → Prop
  | .writer step => CoveredStep cfg m.machine step
  | _ => True

theorem RegistryOk.advanced {r : ProjectionRegistry} {w w' : WatermarkState} (h : RegistryOk r w)
    (hle : Advanced w w') : RegistryOk r w' where
  progress p hp := by
    rw [hle.applied]
    exact ⟨(h.progress p hp).1,
      Nat.le_trans (h.progress p hp).2 hle.notBackwards.global.visible⟩
  laneProgress p hp := by
    rw [hle.laneApplied]
    exact ⟨(h.laneProgress p hp).1,
      Nat.le_trans (h.laneProgress p hp).2 (hle.notBackwards.lanes p.1.2).visible⟩

section Steps

variable {start : Nat → Nat} {honest : Prop}

theorem StageKept.withApplied (v : FrontierView) (applied : HlcPoint)
    (laneApplied : Nat → HlcPoint) :
    StageKept v { v with watermark := v.watermark.withApplied applied laneApplied } :=
  ⟨rfl, rfl, rfl, fun _ => rfl, Nat.le_refl _⟩

/-- A report moves the applied points alone. -/
theorem FrontierSettled.withApplied {w₀ : WatermarkState} {v : FrontierView}
    (h : FrontierSettled start honest w₀ v) {applied : HlcPoint} {laneApplied : Nat → HlcPoint}
    (happlied : honest → AppliedBehind (v.watermark.withApplied applied laneApplied)) :
    FrontierSettled start honest (v.watermark.withApplied applied laneApplied)
      { v with watermark := v.watermark.withApplied applied laneApplied } where
  marks := ⟨h.marks.written, h.marks.visible, h.marks.emitted,
    fun lane => ⟨(h.marks.lanes lane).written, (h.marks.lanes lane).durable,
      (h.marks.lanes lane).visible, (h.marks.lanes lane).emitted⟩,
    h.marks.laneDurable, h.marks.laneVisible⟩
  since := .refl _
  applied := happlied
  durable := h.durable
  accepted := h.accepted
  visible := h.visible
  bound := h.bound
  lane := h.lane
  laneBelow := h.laneBelow
  laneBound := h.laneBound
  shown := h.shown
  held fence hfence := by
    have hok := h.held fence hfence
    refine ⟨hok.active, hok.real, ?_⟩
    rcases hok.content with hnone | ⟨upTo, point, hupTo, hpoint, hpub⟩
    · exact .inl hnone
    · refine .inr ⟨upTo, point, hupTo, hpoint, hpub.top, hpub.bound, hpub.point, ?_⟩
      exact fun n hn => (hpub.accepted n hn).kept (StageKept.withApplied v _ _)

/-- What a projection replays lies behind the visible point of its lane. -/
theorem projectionReplayItems_visible {w₀ : WatermarkState} {s : WriterCore} (hh : honest)
    (h : FrontierSettled start honest w₀ s.frontier) (entity : String) (kinds : List EventKind) :
    ∀ item ∈ projectionReplayItems s.index entity kinds,
      item.point.globalSequence ≤ (s.watermark.lanes item.lane).visible.globalSequence := by
  intro item hitem
  obtain ⟨e, he, rfl⟩ := List.mem_map.mp hitem
  obtain ⟨he, hmatch⟩ := List.mem_filter.mp he
  have hinserted : e ∈ s.index.inserted := by
    have hstream := (List.mem_insertionSort _).mp he
    exact List.mem_of_mem_filter (List.mem_of_mem_filter hstream)
  rw [Bool.and_eq_true] at hmatch
  exact h.shown e hinserted (.inl hh) hmatch.2

theorem projectStep_ok (projectionId entity : String) (kinds : List EventKind)
    (appliedSequence : Option Nat) {m : FrontierMachine} (h : FrontierOk start honest m) :
    FrontierOk start honest (projectStep projectionId entity kinds appliedSequence m) ∧
      (honest → NotBackwards m.watermark
        (projectStep projectionId entity kinds appliedSequence m).watermark) := by
  cases appliedSequence with
  | none => exact ⟨h, fun _ => .refl _⟩
  | some sequence =>
      have hcore := h.machine.core
      have hreport : honest → Applies m.watermark (notifyProjectionApplied projectionId sequence
          (projectionReplayItems m.machine.core.index entity kinds)
          (m.registry, m.watermark)).2 ∧ RegistryOk _ _ :=
        fun hh => notifyProjectionApplied_ok projectionId sequence (hcore.applied hh)
          (h.registry hh) hcore.marks.laneVisible
          (projectionReplayItems_visible hh hcore entity kinds)
      obtain ⟨applied, laneApplied, hw⟩ := notifyProjectionApplied_withApplied projectionId sequence
        (projectionReplayItems m.machine.core.index entity kinds) m.registry m.watermark
      unfold projectStep
      dsimp only
      generalize notifyProjectionApplied projectionId sequence
        (projectionReplayItems m.machine.core.index entity kinds) (m.registry, m.watermark) = st
        at hreport hw
      obtain ⟨r, w⟩ := st
      change w = _ at hw
      subst hw
      refine ⟨⟨⟨?_, ?_⟩, fun hh => (hreport hh).2⟩, fun hh => (hreport hh).1.notBackwards⟩
      · exact hcore.withApplied fun hh => (hreport hh).1.appliedBehind
      · exact StageOk.kept (StageKept.withApplied _ _ _) h.machine.stage

theorem callerBeginFence_kept (s : WriterCore) :
    StageKept s.frontier (callerBeginFence s).frontier := by
  refine ⟨SequenceGate.beginFence_allocated _, ?_, rfl, fun _ => rfl, Nat.le_refl _⟩
  change s.index.gate.beginFence.2.laneVisible = _
  unfold SequenceGate.beginFence
  dsimp only
  split <;> rfl

/-- Every step of an open store keeps the invariant and moves no watermark backwards. -/
theorem frontierStep_ok (cfg : StoreConfig) (rt : Runtime) {m : FrontierMachine}
    (step : FrontierStep) (h : FrontierOk start honest m)
    (hstep : honest → CoveredFrontier cfg m step) :
    FrontierOk start honest (frontierStep cfg rt m step) ∧
      (honest → NotBackwards m.watermark (frontierStep cfg rt m step).watermark) := by
  cases step with
  | beginFence =>
      refine ⟨⟨⟨callerBeginFence_settled h.machine.core, ?_⟩, h.registry⟩, fun _ => .refl _⟩
      exact StageOk.kept (callerBeginFence_kept _) h.machine.stage
  | writer step =>
      have hmachine := machineStep_settled cfg rt step h.machine hstep
      have hsince := hmachine.core.since
      refine ⟨⟨⟨hmachine.core.rebase, hmachine.stage⟩, fun hh => ?_⟩, fun _ => hsince.notBackwards⟩
      exact (h.registry hh).advanced hsince
  | project projectionId entity kinds appliedSequence =>
      exact projectStep_ok projectionId entity kinds appliedSequence h

end Steps

/-! ### The visible watermark and the gate -/

/-- The visible watermarks and the gate agree. `start` are the lane bounds at the open: a
lane that shows another bound has been published on since. -/
structure VisibleMatchesGate (start : Nat → Nat) (core : WriterCore) : Prop where
  below : core.watermark.visible.globalSequence < core.index.gate.visible
  covers : ∀ sequence < core.index.gate.visible,
    sequence ≤ core.watermark.visible.globalSequence
  laneBelow : ∀ lane, 0 < core.index.gate.laneVisible lane →
    (core.watermark.lanes lane).visible.globalSequence < core.index.gate.laneVisible lane
  laneCovers : ∀ lane, core.index.gate.laneVisible lane ≠ start lane →
    ∀ sequence < core.index.gate.laneVisible lane,
      sequence ≤ (core.watermark.lanes lane).visible.globalSequence
  waited : ∀ e ∈ core.index.inserted, core.index.gate.isVisible e.globalSequence = true →
    core.watermark.visible.coversSequence e.point = true
  laneWaited : ∀ e ∈ core.index.allEntries,
    core.index.gate.isVisibleOnLane e.globalSequence e.dagLane = true →
      (core.watermark.lanes e.dagLane).visible.coversSequence e.point = true

theorem FrontierSettled.visibleMatchesGate {start : Nat → Nat} {honest : Prop}
    {w₀ : WatermarkState} {s : WriterCore} (h : FrontierSettled start honest w₀ s.frontier) :
    VisibleMatchesGate start s := by
  have hvisible : s.index.gate.visible = s.watermark.visible.globalSequence + 1 := h.visible
  refine ⟨?_, fun n hn => ?_, fun lane hpos => ?_, fun lane hmoved n hn => ?_,
    fun e he hshown => ?_, fun e he hshown => ?_⟩
  · omega
  · omega
  · have hbelow : (s.watermark.lanes lane).visible.globalSequence ≤
        s.index.gate.laneVisible lane - 1 := h.laneBelow lane
    omega
  · have hlane : s.index.gate.laneVisible lane =
        (s.watermark.lanes lane).visible.globalSequence + 1 := (h.lane lane).resolve_left hmoved
    omega
  · have hlt : e.globalSequence < s.index.gate.visible := by
      simp only [SequenceGate.isVisible, Bool.and_eq_true, decide_eq_true_eq] at hshown
      exact hshown.1
    refine decide_eq_true ?_
    change e.globalSequence ≤ s.watermark.visible.globalSequence
    omega
  · obtain ⟨hmem, hfound⟩ := List.mem_filter.mp he
    have hunshadowed : Unshadowed s.index.inserted e := beq_iff_eq.mp hfound
    exact decide_eq_true (h.shown e hmem (.inr hunshadowed) hshown)

/-- The first open of an empty directory. -/
def firstOpen : StoreState :=
  openStore .small .unsigned ⟨1, [], 0, .none⟩ [] none ⟨none, none⟩ ⟨0, []⟩

theorem firstOpen_idNew :
    OpenIdNew .small .unsigned ⟨1, [], 0, .none⟩ [] none ⟨none, none⟩ := by
  intro index hindex
  cases hindex
  exact ⟨rfl, rfl⟩

/-- The phases of an append that the writer runs through when nothing fails. -/
def appendPhases (command : WriterCommand) : List FrontierStep :=
  [.writer (.start (.command .main ⟨command, .none⟩)), .writer .advance, .writer .advance,
    .writer .advance, .writer .advance]

/-- A fence over two lanes whose later event carries the earlier wall clock. -/
def skewedFenceRun : List FrontierStep :=
  [.beginFence, .writer (.start (.command .main ⟨.beginVisibilityFence 1 0, .none⟩))] ++
    appendPhases (.fenceAppend 1 { plainRequest "a" 10 4 with timestampUs := 9000 } 1) ++
    appendPhases (.fenceAppend 1 { plainRequest "b" 11 4 with dagLane := 1 } 2) ++
    [.writer (.start (.command .main ⟨.commitVisibilityFence 1 3, .none⟩))]

/-- A fenced event on lane one whose fence is cancelled, then a close, an open and an append to
lane zero. -/
def cancelledTailRun : List LifecycleStep :=
  [.reopen ⟨1, [], 0, .none⟩, .beginFence,
    .writer (.command .main ⟨.beginVisibilityFence 1 0, .none⟩),
    .writer (.command .main
      ⟨.fenceAppend 1 { plainRequest "a" 10 4 with dagLane := 1 } 1, .none⟩),
    .writer (.command .main ⟨.cancelVisibilityFence 1 2, .none⟩),
    .close ⟨4, .none, false, false, false⟩, .reopen ⟨2, [], 0, .none⟩,
    .writer (.command .main ⟨.append (plainRequest "b" 11 4) 3, .none⟩)]

/-- No recovered event shares its id with a newer one. -/
def DistinctIds (core : WriterCore) : Prop :=
  ∀ e ∈ core.index.inserted, core.index.byId e.eventId = some e

/-- In every run of an opened store whose recovered events have distinct ids and whose syncs
only succeed when everything accepted has been written, every snapshot is ordered and no
watermark moves backwards between any two of them. -/
theorem watermark_lattice_of_covered_run (cfg : LifecycleConfig) (rt : Runtime)
    (inputs : OpenInputs) (segments : List Segment) (ranges : Option CancelledVisibilityRanges)
    (side : SideFiles) (fences : FenceHistory) (core : WriterCore)
    (hopen : (openStore cfg rt inputs segments ranges side fences).core? = some core)
    (hnew : OpenIdNew cfg rt inputs segments ranges side) (hdistinct : DistinctIds core)
    (early late : List FrontierStep)
    (hcovered : Guarded (frontierStep cfg.store rt) (CoveredFrontier cfg.store) (.ofOpened core)
      (early ++ late)) :
    Lattice (run (frontierStep cfg.store rt) (.ofOpened core) (early ++ late)).watermark ∧
      NotBackwards (run (frontierStep cfg.store rt) (.ofOpened core) early).watermark
        (run (frontierStep cfg.store rt) (.ofOpened core) (early ++ late)).watermark := by
  obtain ⟨s, e, hopened, hrecovered⟩ := openStore_openedFrom hopen hnew
  have hstart : FrontierOk core.index.gate.laneVisible True (.ofOpened core) :=
    ⟨⟨hopened.settled hrecovered fun _ => hdistinct, trivial⟩, fun _ => registryOk_new _⟩
  have hstep : ∀ m step, FrontierOk core.index.gate.laneVisible True m →
      CoveredFrontier cfg.store m step →
      FrontierOk core.index.gate.laneVisible True (frontierStep cfg.store rt m step) :=
    fun m step hm hok => (frontierStep_ok cfg.store rt step hm fun _ => hok).1
  obtain ⟨hearly, hlate⟩ := (guarded_append _ _ _).mp hcovered
  have hmiddle := run_invariant hstep early _ hstart hearly
  rw [run_append]
  generalize run (frontierStep cfg.store rt) (.ofOpened core) early = m at hmiddle hlate
  -- from the earlier snapshot on, the invariant also remembers where the watermarks stood
  have hend := run_invariant (I := fun m' => FrontierOk core.index.gate.laneVisible True m' ∧
      NotBackwards m.watermark m'.watermark)
    (fun m' step hm' hok => ⟨hstep m' step hm'.1 hok,
      hm'.2.trans ((frontierStep_ok cfg.store rt step hm'.1 fun _ => hok).2 trivial)⟩)
    late m ⟨hmiddle, .refl _⟩ hlate
  have hsettled := hend.1.machine.core
  exact ⟨hsettled.marks.lattice (hsettled.applied trivial) (hsettled.durable trivial), hend.2⟩

/-- An append whose frame cannot be encoded after its acceptance, then a sync. -/
def failedAppendThenSync : List FrontierStep :=
  [.writer (.start (.command .main
      ⟨.append (plainRequest "a" 10 4) 1, { Faults.none with encode := fun _ => true }⟩)),
    .writer (.start (.command .main ⟨.sync 2, .none⟩))]

/-- The sync makes the accepted point durable, and nothing of it was written. -/
theorem failed_append_then_sync_breaks_lattice :
    ¬∀ (core : WriterCore) (steps : List FrontierStep), firstOpen.core? = some core →
      DistinctIds core →
      Lattice (run (frontierStep .small .unsigned) (.ofOpened core) steps).watermark := by
  intro h
  have hsome : firstOpen.core?.isSome = true := by decide +kernel
  have hopen : firstOpen.core? = some (firstOpen.core?.get hsome) := (Option.some_get hsome).symm
  have hdistinct : ∀ core ∈ firstOpen.core?, ∀ e ∈ core.index.inserted,
      core.index.byId e.eventId = some e := by decide +kernel
  have hdurable : ∀ core ∈ firstOpen.core?, (run (frontierStep .small .unsigned) (.ofOpened core)
      failedAppendThenSync).watermark.durable.globalSequence ≤
      (run (frontierStep .small .unsigned) (.ofOpened core)
        failedAppendThenSync).watermark.written.globalSequence := by
    intro core hcore
    exact (h core failedAppendThenSync hcore (hdistinct core hcore)).global.durable
  revert hdurable
  decide +kernel

/-- Two appends, a projection of the first entity, a sync: every step is covered. -/
def coveredRun : List FrontierStep :=
  appendPhases (.append (plainRequest "a" 10 4) 1) ++
    [.project "totals" "a" [] (some 1)] ++
    appendPhases (.append { plainRequest "b" 11 4 with dagLane := 1 } 2) ++
    [.writer (.start (.command .main ⟨.sync 3, .none⟩))]

instance (fails : Bool) (s : WriterCore) : Decidable (SyncSafe fails s) :=
  inferInstanceAs (Decidable (fails = true ∨
    s.watermark.accepted.globalSequence ≤ s.watermark.written.globalSequence))

instance (cfg : StoreConfig) (flt : Faults) (s : WriterCore) : Decidable (RotationSafe cfg flt s) :=
  inferInstanceAs (Decidable (RotationQuiet cfg flt s ∨
    s.watermark.accepted.globalSequence ≤ s.watermark.written.globalSequence))

instance (cfg : StoreConfig) : (m : WriterMachine) → (step : MachineStep) →
    Decidable (CoveredStep cfg m step)
  | m, .start (.command loop q) =>
      inferInstanceAs (Decidable (commandSyncs loop q.command = true → SyncSafe q.faults.sync m.core))
  | m, .start (.periodicSync fails) => inferInstanceAs (Decidable (SyncSafe fails m.core))
  | m, .start (.completeShutdown _ flt) => inferInstanceAs (Decidable (SyncSafe flt.sync m.core))
  | ⟨core, .accepted t _ _ _⟩, .advance =>
      inferInstanceAs (Decidable (RotationSafe cfg t.faults core))
  | ⟨core, .batchStaged t _⟩, .advance =>
      inferInstanceAs (Decidable (RotationSafe cfg t.faults core))
  | ⟨_, .idle⟩, .advance | ⟨_, .rotated ..⟩, .advance | ⟨_, .written ..⟩, .advance
  | ⟨_, .committed ..⟩, .advance | ⟨_, .batchRotated ..⟩, .advance | ⟨_, .batchOpen ..⟩, .advance
  | ⟨_, .batchClosed ..⟩, .advance | ⟨_, .batchSynced ..⟩, .advance
  | ⟨_, .batchCommitted ..⟩, .advance => inferInstanceAs (Decidable True)

instance (cfg : StoreConfig) (m : FrontierMachine) : (step : FrontierStep) →
    Decidable (CoveredFrontier cfg m step)
  | .writer step => inferInstanceAs (Decidable (CoveredStep cfg m.machine step))
  | .beginFence | .project .. => inferInstanceAs (Decidable True)

theorem covered_run_lattice :
    ∃ core, firstOpen.core? = some core ∧ DistinctIds core ∧
      Guarded (frontierStep .small .unsigned) (CoveredFrontier .small) (.ofOpened core)
        (coveredRun ++ []) ∧
      Lattice (run (frontierStep .small .unsigned) (.ofOpened core) (coveredRun ++ [])).watermark
      := by
  have hsome : firstOpen.core?.isSome = true := by decide +kernel
  have hopen : firstOpen.core? = some (firstOpen.core?.get hsome) := (Option.some_get hsome).symm
  have hdistinct : ∀ core ∈ firstOpen.core?, ∀ e ∈ core.index.inserted,
      core.index.byId e.eventId = some e := by decide +kernel
  have hcovered : ∀ core ∈ firstOpen.core?, Guarded (frontierStep .small .unsigned)
      (CoveredFrontier .small) (.ofOpened core) (coveredRun ++ []) := by decide +kernel
  refine ⟨_, hopen, hdistinct _ hopen, hcovered _ hopen, ?_⟩
  exact (watermark_lattice_of_covered_run .small .unsigned _ _ _ _ _ _ hopen firstOpen_idNew
    (hdistinct _ hopen) coveredRun [] (hcovered _ hopen)).1

end Batpak.Store
