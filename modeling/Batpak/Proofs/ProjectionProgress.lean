/-
Module: Batpak.Proofs.ProjectionProgress
Purpose: The applied watermarks under the projection registry: the minimum over all projections
  moves forwards and stays behind the visible point.
Trusted boundary: none
Main exports: Applies, notifyProjectionApplied_ok
-/
import Batpak.Proofs.WatermarkLattice

namespace Batpak.Store

variable {point p : HlcPoint} {l : List HlcPoint} {lane : Nat} {w : WatermarkState}
  {r : ProjectionRegistry}

/-! ### Raising and minimising progress -/

theorem raiseProgress_forall {κ : Type} [DecidableEq κ] {P : κ → HlcPoint → Prop} {key : κ}
    {base : HlcPoint} {l : List (κ × HlcPoint)} (hl : ∀ p ∈ l, P p.1 p.2)
    (hbase : P key (base.maxBySequence point))
    (hraise : ∀ q, P key q → P key (q.maxBySequence point)) :
    ∀ p ∈ raiseProgress key base point l, P p.1 p.2 := by
  induction l with
  | nil =>
      intro p hp
      obtain rfl := List.mem_singleton.mp hp
      exact hbase
  | cons q rest ih =>
      intro p hp
      rw [raiseProgress] at hp
      split at hp
      · rename_i hkey
        rcases List.mem_cons.mp hp with rfl | hp
        · have hq := hl q List.mem_cons_self
          rw [hkey] at hq
          change P q.1 (q.2.maxBySequence point)
          rw [hkey]
          exact hraise q.2 hq
        · exact hl p (List.mem_cons_of_mem _ hp)
      · rcases List.mem_cons.mp hp with heq | hp
        · rw [heq]
          exact hl q List.mem_cons_self
        · exact ih (fun r hr => hl r (List.mem_cons_of_mem _ hr)) p hp

namespace HlcPoint

theorem minBySequence_cases (p q : HlcPoint) : p.minBySequence q = p ∨ p.minBySequence q = q := by
  unfold minBySequence HlcPoint.min
  split
  · exact .inl rfl
  · split
    · exact .inr rfl
    · split
      · exact .inr rfl
      · exact .inl rfl

theorem minBySequence_le (p q : HlcPoint) :
    (p.minBySequence q).globalSequence ≤ p.globalSequence ∧
      (p.minBySequence q).globalSequence ≤ q.globalSequence := by
  unfold minBySequence HlcPoint.min
  split
  · omega
  · split
    · omega
    · split
      · omega
      · omega

end HlcPoint

theorem foldl_minBySequence_le (p : HlcPoint) (l : List HlcPoint) :
    (l.foldl HlcPoint.minBySequence p).globalSequence ≤ p.globalSequence ∧
      ∀ q ∈ l, (l.foldl HlcPoint.minBySequence p).globalSequence ≤ q.globalSequence := by
  induction l generalizing p with
  | nil => exact ⟨Nat.le_refl _, fun q hq => by cases hq⟩
  | cons r rest ih =>
      obtain ⟨hfirst, hrest⟩ := ih (p.minBySequence r)
      obtain ⟨hp, hr⟩ := HlcPoint.minBySequence_le p r
      refine ⟨Nat.le_trans hfirst hp, fun q hq => ?_⟩
      rcases List.mem_cons.mp hq with rfl | hq
      · exact Nat.le_trans hfirst hr
      · exact hrest q hq

theorem foldl_minBySequence_forall {P : HlcPoint → Prop} (hp : P p) (hl : ∀ q ∈ l, P q) :
    P (l.foldl HlcPoint.minBySequence p) := by
  induction l generalizing p with
  | nil => exact hp
  | cons r rest ih =>
      apply ih _ fun q hq => hl q (List.mem_cons_of_mem _ hq)
      rcases HlcPoint.minBySequence_cases p r with hmin | hmin
      · rw [hmin]
        exact hp
      · rw [hmin]
        exact hl r List.mem_cons_self

theorem slowest_le {q : HlcPoint} (h : slowest l = some p) (hq : q ∈ l) :
    p.globalSequence ≤ q.globalSequence := by
  cases l with
  | nil => cases hq
  | cons r rest =>
      obtain rfl := Option.some.inj h
      obtain ⟨hfirst, hrest⟩ := foldl_minBySequence_le r rest
      rcases List.mem_cons.mp hq with rfl | hq
      · exact hfirst
      · exact hrest q hq

theorem slowest_forall {P : HlcPoint → Prop} (h : slowest l = some p) (hl : ∀ q ∈ l, P q) :
    P p := by
  cases l with
  | nil => cases h
  | cons r rest =>
      obtain rfl := Option.some.inj h
      exact foldl_minBySequence_forall (hl r List.mem_cons_self)
        fun q hq => hl q (List.mem_cons_of_mem _ hq)

theorem raiseLanePoint_forall {P : Nat → HlcPoint → Prop} {l : List (Nat × HlcPoint)}
    (hl : ∀ q ∈ l, P q.1 q.2) (hp : P lane p) (hmax : ∀ q, P lane q → P lane (q.maxBySequence p)) :
    ∀ q ∈ raiseLanePoint lane p l, P q.1 q.2 := by
  induction l with
  | nil =>
      intro q hq
      obtain rfl := List.mem_singleton.mp hq
      exact hp
  | cons r rest ih =>
      intro q hq
      rw [raiseLanePoint] at hq
      split at hq
      · rcases List.mem_cons.mp hq with rfl | hq
        · exact hp
        · exact hl q hq
      · split at hq
        · rename_i heq
          rcases List.mem_cons.mp hq with rfl | hq
          · have hr := hl r List.mem_cons_self
            rw [← heq] at hr
            change P r.1 (r.2.maxBySequence p)
            rw [← heq]
            exact hmax r.2 hr
          · exact hl q (List.mem_cons_of_mem _ hq)
        · rcases List.mem_cons.mp hq with heq | hq
          · rw [heq]
            exact hl r List.mem_cons_self
          · exact ih (fun r hr => hl r (List.mem_cons_of_mem _ hr)) q hq

/-! ### The registry and the applied points -/

/-- Every registered projection stands between the applied and the visible point, on the
global track and on every lane it has reported. -/
structure RegistryOk (r : ProjectionRegistry) (w : WatermarkState) : Prop where
  progress : ∀ p ∈ r.progress, w.applied.globalSequence ≤ p.2.globalSequence ∧
    p.2.globalSequence ≤ w.visible.globalSequence
  laneProgress : ∀ p ∈ r.laneProgress,
    (w.lanes p.1.2).applied.globalSequence ≤ p.2.globalSequence ∧
      p.2.globalSequence ≤ (w.lanes p.1.2).visible.globalSequence

theorem registryOk_new (w : WatermarkState) : RegistryOk .new w :=
  ⟨fun p hp => (by cases hp), fun p hp => (by cases hp)⟩

/-- The watermarks with other applied points. -/
def WatermarkState.withApplied (w : WatermarkState) (applied : HlcPoint)
    (laneApplied : Nat → HlcPoint) : WatermarkState :=
  { w with
    applied := applied
    lanes := fun lane => { w.lanes lane with applied := laneApplied lane } }

/-- All points but the applied ones are the same; the applied ones moved forwards and stay
behind the visible ones. -/
structure Applies (w w' : WatermarkState) : Prop where
  same : w' = w.withApplied w'.applied fun lane => (w'.lanes lane).applied
  forwards : w.applied.globalSequence ≤ w'.applied.globalSequence
  behind : w'.applied.globalSequence ≤ w.visible.globalSequence
  laneForwards : ∀ lane,
    (w.lanes lane).applied.globalSequence ≤ (w'.lanes lane).applied.globalSequence
  laneBehind : ∀ lane,
    (w'.lanes lane).applied.globalSequence ≤ (w.lanes lane).visible.globalSequence

namespace Applies

variable {w w' w'' : WatermarkState}

theorem refl (h : AppliedBehind w) : Applies w w :=
  ⟨rfl, Nat.le_refl _, h.global, fun _ => Nat.le_refl _, h.lanes⟩

theorem visible (h : Applies w w') : w'.visible = w.visible := by
  rw [h.same]
  rfl

theorem laneVisible (h : Applies w w') (lane : Nat) :
    (w'.lanes lane).visible = (w.lanes lane).visible := by
  rw [h.same]
  rfl

theorem trans (h : Applies w w') (h' : Applies w' w'') : Applies w w'' where
  same := by
    rw [h'.same]
    nth_rewrite 1 [h.same]
    rfl
  forwards := Nat.le_trans h.forwards h'.forwards
  behind := by
    rw [← h.visible]
    exact h'.behind
  laneForwards lane := Nat.le_trans (h.laneForwards lane) (h'.laneForwards lane)
  laneBehind lane := by
    rw [← h.laneVisible]
    exact h'.laneBehind lane

theorem notBackwards (h : Applies w w') : NotBackwards w w' where
  global := by
    have hforwards := h.forwards
    rw [h.same]
    exact { LaneWatermarks.AtOrPast.refl w.global with applied := hforwards }
  lanes lane := by
    have hforwards := h.laneForwards lane
    rw [h.same]
    exact { LaneWatermarks.AtOrPast.refl (w.lanes lane) with applied := hforwards }

theorem appliedBehind (h : Applies w w') : AppliedBehind w' where
  global := by
    rw [h.visible]
    exact h.behind
  lanes lane := by
    rw [h.laneVisible]
    exact h.laneBehind lane

end Applies

/-! ### A report -/

theorem setApplied_applies (hw : AppliedBehind w)
    (hforwards : w.applied.globalSequence ≤ point.globalSequence)
    (hbehind : point.globalSequence ≤ w.visible.globalSequence) :
    Applies w (w.setApplied point) :=
  ⟨rfl, hforwards, hbehind, fun _ => Nat.le_refl _, hw.lanes⟩

theorem setAppliedOnLane_lanes (w : WatermarkState) (lane : Nat) (point : HlcPoint) (lane' : Nat) :
    (w.setAppliedOnLane lane point).lanes lane' =
      if lane' = lane then { w.lanes lane' with applied := point } else w.lanes lane' :=
  WatermarkState.onLane_lanes w lane _ lane'

theorem setAppliedOnLane_applies (hw : AppliedBehind w)
    (hforwards : (w.lanes lane).applied.globalSequence ≤ point.globalSequence)
    (hbehind : point.globalSequence ≤ (w.lanes lane).visible.globalSequence) :
    Applies w (w.setAppliedOnLane lane point) := by
  have hlanes := setAppliedOnLane_lanes w lane point
  refine ⟨?_, Nat.le_refl _, hw.global, fun lane' => ?_, fun lane' => ?_⟩
  · have hfun : (w.setAppliedOnLane lane point).lanes =
        fun lane' => { w.lanes lane' with
          applied := ((w.setAppliedOnLane lane point).lanes lane').applied } := by
      funext lane'
      rw [hlanes]
      split <;> rfl
    unfold WatermarkState.withApplied
    rw [← hfun]
    rfl
  · rw [hlanes]
    split
    · rename_i heq
      rw [heq]
      exact hforwards
    · exact Nat.le_refl _
  · rw [hlanes]
    split
    · rename_i heq
      rw [heq]
      exact hbehind
    · exact hw.lanes lane'

/-- The global track follows the slowest projection. -/
theorem recompute_ok (hw : AppliedBehind w)
    (hr : ∀ p ∈ r.progress, w.applied.globalSequence ≤ p.2.globalSequence ∧
      p.2.globalSequence ≤ w.visible.globalSequence) :
    Applies w (r.recompute w) ∧ (r.recompute w).lanes = w.lanes ∧
      ∀ p ∈ r.progress, (r.recompute w).applied.globalSequence ≤ p.2.globalSequence := by
  unfold ProjectionRegistry.recompute
  cases hslowest : slowest (r.progress.map Prod.snd) with
  | none => exact ⟨.refl hw, rfl, fun p hp => (hr p hp).1⟩
  | some point =>
      have hpoint : w.applied.globalSequence ≤ point.globalSequence ∧
          point.globalSequence ≤ w.visible.globalSequence := by
        apply slowest_forall hslowest
        intro q hq
        obtain ⟨p, hp, rfl⟩ := List.mem_map.mp hq
        exact hr p hp
      refine ⟨setApplied_applies hw hpoint.1 hpoint.2, rfl, fun p hp => ?_⟩
      exact slowest_le hslowest (List.mem_map.mpr ⟨p, hp, rfl⟩)

/-- A lane follows the slowest projection that has reported it. -/
theorem recomputeLane_ok (hw : AppliedBehind w) (lane : Nat)
    (hr : ∀ p ∈ r.laneProgress,
      (w.lanes p.1.2).applied.globalSequence ≤ p.2.globalSequence ∧
        p.2.globalSequence ≤ (w.lanes p.1.2).visible.globalSequence) :
    Applies w (r.recomputeLane lane w) ∧ (r.recomputeLane lane w).applied = w.applied ∧
      ∀ p ∈ r.laneProgress,
        ((r.recomputeLane lane w).lanes p.1.2).applied.globalSequence ≤ p.2.globalSequence := by
  unfold ProjectionRegistry.recomputeLane
  have hlane : ∀ p ∈ r.laneProgress.filter (fun p => p.1.2 == lane),
      p ∈ r.laneProgress ∧ p.1.2 = lane := by
    intro p hp
    obtain ⟨hmem, heq⟩ := List.mem_filter.mp hp
    exact ⟨hmem, by simpa using heq⟩
  cases hslowest : slowest ((r.laneProgress.filter fun p => p.1.2 == lane).map Prod.snd) with
  | none => exact ⟨.refl hw, rfl, fun p hp => (hr p hp).1⟩
  | some point =>
      have hpoint : (w.lanes lane).applied.globalSequence ≤ point.globalSequence ∧
          point.globalSequence ≤ (w.lanes lane).visible.globalSequence := by
        apply slowest_forall hslowest
        intro q hq
        obtain ⟨p, hp, rfl⟩ := List.mem_map.mp hq
        obtain ⟨hmem, heq⟩ := hlane p hp
        rw [← heq]
        exact hr p hmem
      refine ⟨setAppliedOnLane_applies hw hpoint.1 hpoint.2, rfl, fun p hp => ?_⟩
      rw [setAppliedOnLane_lanes]
      split
      · rename_i heq
        apply slowest_le hslowest
        exact List.mem_map.mpr ⟨p, List.mem_filter.mpr ⟨hp, by simpa using heq⟩, rfl⟩
      · exact (hr p hp).1

/-- One report of one lane: the applied points follow, every projection stays in between. -/
theorem notifyAppliedOnLane_ok (projectionId : String) (hw : AppliedBehind w) (hr : RegistryOk r w)
    (hvisible : (w.lanes lane).visible.globalSequence ≤ w.visible.globalSequence)
    (hpoint : point.globalSequence ≤ (w.lanes lane).visible.globalSequence) :
    let st := ProjectionRegistry.notifyAppliedOnLane projectionId lane point (r, w)
    Applies w st.2 ∧ RegistryOk st.1 st.2 := by
  intro st
  have hglobal : ∀ p ∈ raiseProgress projectionId w.applied point r.progress,
      w.applied.globalSequence ≤ p.2.globalSequence ∧
        p.2.globalSequence ≤ w.visible.globalSequence := by
    have hvisible := Nat.le_trans hpoint hvisible
    refine raiseProgress_forall (P := fun _ (p : HlcPoint) =>
      w.applied.globalSequence ≤ p.globalSequence ∧
        p.globalSequence ≤ w.visible.globalSequence) hr.progress ?_ ?_
    · exact ⟨HlcPoint.le_maxBySequence_left _ _, HlcPoint.maxBySequence_le hw.global hvisible⟩
    · exact fun q hq => ⟨Nat.le_trans hq.1 (HlcPoint.le_maxBySequence_left _ _),
        HlcPoint.maxBySequence_le hq.2 hvisible⟩
  have hlanes : ∀ p ∈ raiseProgress (projectionId, lane) (w.lanes lane).applied point
      r.laneProgress, (w.lanes p.1.2).applied.globalSequence ≤ p.2.globalSequence ∧
        p.2.globalSequence ≤ (w.lanes p.1.2).visible.globalSequence := by
    refine raiseProgress_forall (P := fun (key : String × Nat) (p : HlcPoint) =>
      (w.lanes key.2).applied.globalSequence ≤ p.globalSequence ∧
        p.globalSequence ≤ (w.lanes key.2).visible.globalSequence) hr.laneProgress ?_ ?_
    · exact ⟨HlcPoint.le_maxBySequence_left _ _,
        HlcPoint.maxBySequence_le (hw.lanes lane) hpoint⟩
    · exact fun q hq => ⟨Nat.le_trans hq.1 (HlcPoint.le_maxBySequence_left _ _),
        HlcPoint.maxBySequence_le hq.2 hpoint⟩
  generalize hr' : (⟨raiseProgress projectionId w.applied point r.progress,
    raiseProgress (projectionId, lane) (w.lanes lane).applied point r.laneProgress⟩ :
    ProjectionRegistry) = r'
  have hst : st = (r', r'.recomputeLane lane (r'.recompute w)) := by
    rw [← hr']
    rfl
  have hprogress : r'.progress = raiseProgress projectionId w.applied point r.progress := by
    rw [← hr']
  have hlaneProgress : r'.laneProgress =
      raiseProgress (projectionId, lane) (w.lanes lane).applied point r.laneProgress := by
    rw [← hr']
  rw [← hprogress] at hglobal
  rw [← hlaneProgress] at hlanes
  obtain ⟨happlies, hsame, hslow⟩ := recompute_ok hw hglobal
  have hlanes' := hlanes
  rw [← hsame] at hlanes'
  obtain ⟨happlies', hsame', hslow'⟩ := recomputeLane_ok happlies.appliedBehind lane hlanes'
  have hall := happlies.trans happlies'
  rw [hst]
  refine ⟨hall, ⟨fun p hp => ⟨?_, ?_⟩, fun p hp => ⟨hslow' p hp, ?_⟩⟩⟩
  · rw [hsame']
    exact hslow p hp
  · rw [hall.visible]
    exact (hglobal p hp).2
  · rw [hall.laneVisible]
    exact (hlanes p hp).2

/-- A whole report: the highest applied point of every lane the projection replayed. -/
theorem notifyProjectionApplied_ok (projectionId : String) (appliedSequence : Nat)
    {items : List ProjectionReplayItem} (hw : AppliedBehind w) (hr : RegistryOk r w)
    (hvisible : ∀ lane, (w.lanes lane).visible.globalSequence ≤ w.visible.globalSequence)
    (hitems : ∀ item ∈ items, item.point.globalSequence ≤
      (w.lanes item.lane).visible.globalSequence) :
    let st := notifyProjectionApplied projectionId appliedSequence items (r, w)
    Applies w st.2 ∧ RegistryOk st.1 st.2 := by
  intro st
  have hpoints : ∀ (rest : List ProjectionReplayItem) (lanes : List (Nat × HlcPoint)),
      (∀ item ∈ rest, item.point.globalSequence ≤
        (w.lanes item.lane).visible.globalSequence) →
      (∀ p ∈ lanes, p.2.globalSequence ≤ (w.lanes p.1).visible.globalSequence) →
      ∀ p ∈ rest.foldl (fun lanes item => raiseLanePoint item.lane item.point lanes) lanes,
        p.2.globalSequence ≤ (w.lanes p.1).visible.globalSequence := by
    intro rest
    induction rest with
    | nil => exact fun lanes _ hlanes => hlanes
    | cons item rest ih =>
        intro lanes hrest hlanes
        apply ih _ fun i hi => hrest i (List.mem_cons_of_mem _ hi)
        have hitem := hrest item List.mem_cons_self
        exact raiseLanePoint_forall (P := fun lane (p : HlcPoint) =>
          p.globalSequence ≤ (w.lanes lane).visible.globalSequence) hlanes hitem
          fun q hq => HlcPoint.maxBySequence_le hq hitem
  -- the reports of the lanes follow one another; the visible points stay where they are
  have hreports : ∀ (lanes : List (Nat × HlcPoint)) (st : ProjectionRegistry × WatermarkState),
      (∀ p ∈ lanes, p.2.globalSequence ≤ (w.lanes p.1).visible.globalSequence) →
      Applies w st.2 → RegistryOk st.1 st.2 →
      let st' := lanes.foldl
        (fun st p => ProjectionRegistry.notifyAppliedOnLane projectionId p.1 p.2 st) st
      Applies w st'.2 ∧ RegistryOk st'.1 st'.2 := by
    intro lanes
    induction lanes with
    | nil => exact fun st _ happlies hregistry => ⟨happlies, hregistry⟩
    | cons p rest ih =>
        intro st hlanes happlies hregistry
        have hp := hlanes p List.mem_cons_self
        have hlane := hvisible p.1
        rw [← happlies.laneVisible] at hp hlane
        rw [← happlies.visible] at hlane
        obtain ⟨hstep, hstep'⟩ :=
          notifyAppliedOnLane_ok projectionId happlies.appliedBehind hregistry hlane hp
        exact ih _ (fun q hq => hlanes q (List.mem_cons_of_mem _ hq))
          (happlies.trans hstep) hstep'
  refine hreports _ (r, w) (hpoints _ [] ?_ fun p hp => (by cases hp)) (.refl hw) hr
  exact fun item hitem => hitems item (List.mem_of_mem_filter hitem)

/-- Whatever a projection reports, only the applied points move. -/
theorem notifyProjectionApplied_withApplied (projectionId : String) (appliedSequence : Nat)
    (items : List ProjectionReplayItem) (r : ProjectionRegistry) (w : WatermarkState) :
    ∃ applied laneApplied,
      (notifyProjectionApplied projectionId appliedSequence items (r, w)).2 =
        w.withApplied applied laneApplied := by
  have hlane : ∀ (w' : WatermarkState) (lane : Nat) (point : HlcPoint),
      (∃ applied laneApplied, w' = w.withApplied applied laneApplied) →
      ∃ applied laneApplied, w'.setAppliedOnLane lane point =
        w.withApplied applied laneApplied := by
    rintro _ lane point ⟨applied, laneApplied, rfl⟩
    refine ⟨applied, Function.update laneApplied lane point, ?_⟩
    have hlanes : ((w.withApplied applied laneApplied).setAppliedOnLane lane point).lanes =
        (w.withApplied applied (Function.update laneApplied lane point)).lanes := by
      funext lane'
      rw [setAppliedOnLane_lanes]
      unfold WatermarkState.withApplied
      dsimp only
      by_cases heq : lane' = lane
      · subst heq
        rw [if_pos rfl, Function.update_self]
      · rw [if_neg heq, Function.update_of_ne heq]
    calc (w.withApplied applied laneApplied).setAppliedOnLane lane point
        = { w.withApplied applied laneApplied with
            lanes := ((w.withApplied applied laneApplied).setAppliedOnLane lane point).lanes } :=
          rfl
      _ = w.withApplied applied (Function.update laneApplied lane point) := by
          rw [hlanes]
          rfl
  have hstep : ∀ (st : ProjectionRegistry × WatermarkState) (p : Nat × HlcPoint),
      (∃ applied laneApplied, st.2 = w.withApplied applied laneApplied) →
      ∃ applied laneApplied,
        (ProjectionRegistry.notifyAppliedOnLane projectionId p.1 p.2 st).2 =
          w.withApplied applied laneApplied := by
    rintro ⟨r, w'⟩ p ⟨applied, laneApplied, hw'⟩
    unfold ProjectionRegistry.notifyAppliedOnLane
    dsimp only
    generalize (⟨raiseProgress projectionId w'.applied p.2 r.progress, raiseProgress
      (projectionId, p.1) (w'.lanes p.1).applied p.2 r.laneProgress⟩ : ProjectionRegistry) = r'
    have hglobal : ∃ applied laneApplied, r'.recompute w' = w.withApplied applied laneApplied := by
      unfold ProjectionRegistry.recompute
      cases slowest (r'.progress.map Prod.snd) with
      | none => exact ⟨applied, laneApplied, hw'⟩
      | some point =>
          refine ⟨point, laneApplied, ?_⟩
          change w'.setApplied point = _
          rw [show w' = _ from hw']
          rfl
    unfold ProjectionRegistry.recomputeLane
    cases slowest ((r'.laneProgress.filter fun q => q.1.2 == p.1).map Prod.snd) with
    | none => exact hglobal
    | some point => exact hlane _ p.1 point hglobal
  unfold notifyProjectionApplied
  dsimp only
  generalize (items.filter fun item => item.globalSequence ≤ appliedSequence).foldl
    (fun lanes item => raiseLanePoint item.lane item.point lanes) [] = lanes
  have hstart : ∃ applied laneApplied, (r, w).2 = w.withApplied applied laneApplied :=
    ⟨w.applied, fun lane => (w.lanes lane).applied, rfl⟩
  generalize (r, w) = st at hstart
  induction lanes generalizing st with
  | nil => exact hstart
  | cons p rest ih => exact ih _ (hstep st p hstart)

end Batpak.Store
