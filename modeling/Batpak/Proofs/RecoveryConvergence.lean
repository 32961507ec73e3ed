/-
Module: Batpak.Proofs.RecoveryConvergence
Purpose: Reconciliation converges, whatever effects of it a crash lets through.
Trusted boundary: none
Main exports: RecoveryAction.settled, reconciliation_converges
-/
import Batpak.Proofs.RecoveryAuthority

namespace Batpak.Bvisor

variable {w : RecoveryWorld} {action : DispositionAction}

/-! ### The decision, artifact by artifact -/

/-- What the view and the probe hold of one artifact. -/
abbrev ArtifactStatus := Option DispositionState × Option ArtifactReality

namespace ArtifactStatus

variable {status : ArtifactStatus}

/-- The verdict on an artifact; without a disposition there is none to settle. -/
def outcome : ArtifactStatus → DispositionOutcome
  | (none, _) => .settled
  | (some state, reality) => reconcileDisposition state (reality.getD {})

def move (status : ArtifactStatus) (action : DispositionAction) : ArtifactStatus :=
  (status.1, some ((status.2.getD {}).moved action))

def recordApplied (status : ArtifactStatus) : ArtifactStatus :=
  (some ((status.1.getD {}).observe .applied), status.2)

/-- The end of the interrupted disposition, if there is one. -/
def finished (status : ArtifactStatus) : ArtifactStatus :=
  match status.outcome with
  | .finish action => (status.move action).recordApplied
  | .settled => status
  | .refuse _ => status

/-- How far a crash may have let an action come. -/
inductive Reached (status : ArtifactStatus) (action : DispositionAction) : ArtifactStatus → Prop where
  | untouched : Reached status action status
  | moved : Reached status action (status.move action)
  | applied : Reached status action (status.move action).recordApplied

theorem outcome_finish (h : status.outcome = .finish action) :
    ∃ state, status.1 = some state ∧ state.decided = some action ∧ state.failed = false ∧
      (action = .promote ∨ action = .discard ∧ (status.2.getD {}).promotedBytesPresent = false) := by
  obtain ⟨state, reality⟩ := status
  cases state with
  | none => cases h
  | some state =>
      refine ⟨state, rfl, ?_⟩
      unfold outcome reconcileDisposition at h
      cases hdecided : state.decided with
      | none =>
          simp only [hdecided] at h
          split at h <;> cases h
      | some decided =>
          cases hfailed : state.failed with
          | true => simp [hdecided, hfailed] at h
          | false =>
              cases decided <;> simp only [hdecided, hfailed] at h <;> split_ifs at h <;>
                simp_all

/-- Carried to its end, a disposition is settled. -/
theorem outcome_applied (h : status.outcome = .finish action) :
    ((status.move action).recordApplied).outcome = .settled := by
  obtain ⟨state, hstate, hdecided, hfailed, haction⟩ := outcome_finish h
  obtain ⟨_, reality⟩ := status
  cases hstate
  rcases haction with rfl | ⟨rfl, hpromoted⟩
  · simp [move, recordApplied, outcome, reconcileDisposition, DispositionState.observe, hdecided,
      hfailed, ArtifactReality.moved]
  · simp [move, recordApplied, outcome, reconcileDisposition, DispositionState.observe, hdecided,
      hfailed, ArtifactReality.moved, hpromoted]

/-- With the bytes moved and no phase recorded, the same action is still to be finished. -/
theorem outcome_moved (h : status.outcome = .finish action) :
    (status.move action).outcome = .finish action ∨ (status.move action).outcome = .settled := by
  obtain ⟨state, hstate, hdecided, hfailed, haction⟩ := outcome_finish h
  obtain ⟨_, reality⟩ := status
  cases hstate
  rcases haction with rfl | ⟨rfl, hpromoted⟩
  · cases happlied : state.applied with
    | true =>
        apply Or.inr
        simp [move, outcome, reconcileDisposition, hdecided, hfailed, happlied,
          ArtifactReality.moved]
    | false =>
        apply Or.inl
        simp [move, outcome, reconcileDisposition, hdecided, hfailed, happlied]
  · cases happlied : state.applied with
    | true =>
        unfold outcome reconcileDisposition at h
        simp [hdecided, hfailed, happlied, hpromoted] at h
    | false =>
        apply Or.inl
        simp [move, outcome, reconcileDisposition, hdecided, hfailed, happlied,
          ArtifactReality.moved, hpromoted]

/-- Both effects are idempotent. -/
theorem move_move (status : ArtifactStatus) (action : DispositionAction) :
    (status.move action).move action = status.move action := by
  cases action <;> rfl

theorem recordApplied_of_applied {state : DispositionState}
    (hstate : status.1 = some state) (happlied : state.applied = true) :
    status.recordApplied = status := by
  obtain ⟨_, reality⟩ := status
  cases hstate
  cases state
  cases happlied
  rfl

theorem finished_of_settled (h : status.outcome = .settled) :
    status.finished = status := by
  simp only [finished, h]

theorem finished_of_finish (h : status.outcome = .finish action) :
    status.finished = (status.move action).recordApplied := by
  simp only [finished, h]

/-- A disposition whose bytes are where they belong before its phase is seen as settled only if
the phase was there already. -/
theorem recordApplied_of_moved_settled
    (h : status.outcome = .finish action) (hmoved : (status.move action).outcome = .settled) :
    (status.move action).recordApplied = status.move action := by
  obtain ⟨state, hstate, hdecided, hfailed, haction⟩ := outcome_finish h
  have hkept : (status.move action).1 = some state := hstate
  apply recordApplied_of_applied hkept
  obtain ⟨_, reality⟩ := status
  cases hstate
  unfold move outcome reconcileDisposition at hmoved
  rcases haction with rfl | ⟨rfl, hpromoted⟩
  · by_contra hnot
    simp [hdecided, hfailed, hnot] at hmoved
  · by_contra hnot
    simp [hdecided, hfailed, hnot, ArtifactReality.moved, hpromoted] at hmoved

/-- Wherever a crash left an action, it is not refused there and it ends in the same place. -/
theorem Reached.finished {status reached : ArtifactStatus}
    (h : status.outcome = .finish action) (hreached : Reached status action reached) :
    (∀ reason, reached.outcome ≠ .refuse reason) ∧ reached.finished = status.finished := by
  cases hreached with
  | untouched =>
      refine ⟨?_, rfl⟩
      intro reason hreason
      rw [h] at hreason
      cases hreason
  | moved =>
      rw [finished_of_finish h]
      rcases outcome_moved h with hfinish | hsettled
      · rw [finished_of_finish hfinish, move_move]
        refine ⟨?_, rfl⟩
        intro reason hreason
        rw [hfinish] at hreason
        cases hreason
      · rw [finished_of_settled hsettled, recordApplied_of_moved_settled h hsettled]
        refine ⟨?_, rfl⟩
        intro reason hreason
        rw [hsettled] at hreason
        cases hreason
  | applied =>
      have hsettled := outcome_applied h
      rw [finished_of_settled hsettled, finished_of_finish h]
      refine ⟨?_, rfl⟩
      intro reason hreason
      rw [hsettled] at hreason
      cases hreason

/-- What is finished is settled, unless it was refused. -/
theorem outcome_finished (h : ∀ reason, status.outcome ≠ .refuse reason) :
    status.finished.outcome = .settled := by
  cases houtcome : status.outcome with
  | settled => rw [finished_of_settled houtcome, houtcome]
  | finish action =>
      rw [finished_of_finish houtcome]
      exact outcome_applied houtcome
  | refuse reason => exact absurd houtcome (h reason)

end ArtifactStatus

namespace RecoveryWorld

/-! ### One artifact of a world -/

def status (w : RecoveryWorld) (a : ArtifactId) : ArtifactStatus :=
  (w.view.dispositions[a]?, w.probe.artifacts[a]?)

theorem status_move (w : RecoveryWorld) (fix : ArtifactFix) (a : ArtifactId) :
    (w.step (.move fix)).status a =
      if fix.artifact = a then (w.status a).move fix.action else w.status a := by
  by_cases ha : fix.artifact = a
  · rw [if_pos ha]
    subst ha
    simp [status, step, ArtifactStatus.move, RecoveryProbe.forArtifact,
      Std.TreeMap.getD_eq_getD_getElem?]
  · rw [if_neg ha]
    simp [status, step, Std.TreeMap.getElem?_insert, ha]

theorem status_recordApplied (w : RecoveryWorld) (artifact a : ArtifactId) :
    (w.step (.recordApplied artifact)).status a =
      if artifact = a then (w.status a).recordApplied else w.status a := by
  by_cases ha : artifact = a
  · rw [if_pos ha]
    subst ha
    simp [status, step, ArtifactStatus.recordApplied, RunView.observe, RunView.observeDisposition,
      Std.TreeMap.getD_eq_getD_getElem?]
  · rw [if_neg ha]
    simp [status, step, RunView.observe, RunView.observeDisposition, Std.TreeMap.getElem?_insert,
      ha]

/-! ### Finishing the listed dispositions -/

def finishEffects (fixes : List ArtifactFix) : List RecoveryEffect :=
  fixes.flatMap fun fix => [.move fix, .recordApplied fix.artifact]

/-- What the work on dispositions leaves alone. -/
structure Framed (w w' : RecoveryWorld) : Prop where
  attempt : w'.view.attempt = w.view.attempt
  planId : w'.view.planId = w.view.planId
  started : w'.view.started = w.view.started
  reported : w'.view.reported = w.view.reported
  torn : w'.probe.tornReport = w.probe.tornReport
  orphans : w'.probe.orphans = w.probe.orphans

theorem Framed.refl (w : RecoveryWorld) : Framed w w :=
  ⟨rfl, rfl, rfl, rfl, rfl, rfl⟩

theorem Framed.trans {w₁ w₂ w₃ : RecoveryWorld} (h : Framed w₁ w₂) (h' : Framed w₂ w₃) :
    Framed w₁ w₃ :=
  ⟨h'.attempt.trans h.attempt, h'.planId.trans h.planId, h'.started.trans h.started,
    h'.reported.trans h.reported, h'.torn.trans h.torn, h'.orphans.trans h.orphans⟩

theorem framed_finish (fixes : List ArtifactFix) (k : Nat) (w : RecoveryWorld) :
    Framed w (((finishEffects fixes).take k).foldl step w) := by
  have hall : ∀ (effects : List RecoveryEffect) (w : RecoveryWorld),
      (∀ e ∈ effects, e ∈ finishEffects fixes) → Framed w (effects.foldl step w) := by
    intro effects
    induction effects with
    | nil => exact fun w _ => Framed.refl w
    | cons e rest ih =>
        intro w hmem
        have hstep : Framed w (w.step e) := by
          obtain ⟨fix, -, he⟩ := List.mem_flatMap.mp (hmem e List.mem_cons_self)
          simp only [List.mem_cons, List.not_mem_nil, or_false] at he
          rcases he with rfl | rfl
          · exact ⟨rfl, rfl, rfl, rfl, rfl, rfl⟩
          · exact ⟨rfl, rfl, rfl, rfl, rfl, rfl⟩
        exact hstep.trans (ih _ fun e he => hmem e (List.mem_cons_of_mem _ he))
  exact hall _ w fun e he => List.mem_of_mem_take he

/-- The two effects of one fix, on one artifact. -/
theorem status_fix (w : RecoveryWorld) (fix : ArtifactFix) (a : ArtifactId) :
    ((w.step (.move fix)).step (.recordApplied fix.artifact)).status a =
      if fix.artifact = a then ((w.status a).move fix.action).recordApplied else w.status a := by
  rw [status_recordApplied, status_move]
  by_cases ha : fix.artifact = a
  · simp only [if_pos ha]
  · simp only [if_neg ha]

/-- After some of the effects, an artifact on the list is somewhere on its way, and the others
have not moved. -/
theorem reached_take {fixes : List ArtifactFix} (hnodup : (fixes.map (·.artifact)).Nodup) (k : Nat)
    (w : RecoveryWorld) (a : ArtifactId) :
    (∀ fix ∈ fixes, fix.artifact = a → ArtifactStatus.Reached (w.status a) fix.action
      ((((finishEffects fixes).take k).foldl step w).status a)) ∧
    ((∀ fix ∈ fixes, fix.artifact ≠ a) →
      (((finishEffects fixes).take k).foldl step w).status a = w.status a) := by
  induction fixes generalizing k w with
  | nil => simp [finishEffects]
  | cons fix rest ih =>
      rw [List.map_cons, List.nodup_cons] at hnodup
      have heffects : finishEffects (fix :: rest) =
          .move fix :: .recordApplied fix.artifact :: finishEffects rest := rfl
      rw [heffects]
      cases k with
      | zero => exact ⟨fun _ _ _ => .untouched, fun _ => rfl⟩
      | succ k =>
          cases k with
          | zero =>
              change (∀ f ∈ fix :: rest, f.artifact = a → ArtifactStatus.Reached (w.status a)
                f.action ((w.step (.move fix)).status a)) ∧ ((∀ f ∈ fix :: rest, f.artifact ≠ a) →
                  (w.step (.move fix)).status a = w.status a)
              rw [status_move]
              constructor
              · intro f hf ha
                rcases List.mem_cons.mp hf with rfl | hf
                · rw [if_pos ha]
                  exact .moved
                · rw [if_neg fun heq => hnodup.1 (List.mem_map.mpr ⟨f, hf, ha.trans heq.symm⟩)]
                  exact .untouched
              · intro hnone
                rw [if_neg (hnone fix List.mem_cons_self)]
          | succ k =>
              have hrest := ih hnodup.2 k ((w.step (.move fix)).step (.recordApplied fix.artifact))
              rw [status_fix] at hrest
              constructor
              · intro f hf ha
                rcases List.mem_cons.mp hf with rfl | hf
                · rw [if_pos ha] at hrest
                  have hnone : ∀ g ∈ rest, g.artifact ≠ a := fun g hg heq =>
                    hnodup.1 (List.mem_map.mpr ⟨g, hg, heq.trans ha.symm⟩)
                  exact (hrest.2 hnone) ▸ .applied
                · rw [if_neg fun heq => hnodup.1 (List.mem_map.mpr ⟨f, hf, ha.trans heq.symm⟩)]
                    at hrest
                  exact hrest.1 f hf ha
              · intro hnone
                rw [if_neg (hnone fix List.mem_cons_self)] at hrest
                exact hrest.2 fun g hg => hnone g (List.mem_cons_of_mem _ hg)

/-- After all of them, it has arrived. -/
theorem status_finish {fixes : List ArtifactFix} (hnodup : (fixes.map (·.artifact)).Nodup)
    (w : RecoveryWorld) {fix : ArtifactFix} (hfix : fix ∈ fixes) :
    ((finishEffects fixes).foldl step w).status fix.artifact =
      ((w.status fix.artifact).move fix.action).recordApplied := by
  induction fixes generalizing w with
  | nil => cases hfix
  | cons f rest ih =>
      rw [List.map_cons, List.nodup_cons] at hnodup
      have hrest := ih hnodup.2 ((w.step (.move f)).step (.recordApplied f.artifact))
      change ((finishEffects rest).foldl step
        ((w.step (.move f)).step (.recordApplied f.artifact))).status fix.artifact = _
      rcases List.mem_cons.mp hfix with rfl | hfix
      · have hnone : ∀ g ∈ rest, g.artifact ≠ fix.artifact := fun g hg heq =>
          hnodup.1 (List.mem_map.mpr ⟨g, hg, heq⟩)
        have hkept := (reached_take hnodup.2 (finishEffects rest).length
          ((w.step (.move fix)).step (.recordApplied fix.artifact)) fix.artifact).2 hnone
        rw [List.take_length] at hkept
        rw [hkept, status_fix, if_pos rfl]
      · have hne : f.artifact ≠ fix.artifact := fun heq =>
          hnodup.1 (List.mem_map.mpr ⟨fix, hfix, heq.symm⟩)
        rw [hrest hfix, status_fix, if_neg hne]

/-! ### The decision of a sealed attempt -/

def fixOf (probe : RecoveryProbe) (entry : ArtifactId × DispositionState) : Option ArtifactFix :=
  match reconcileDisposition entry.2 (probe.forArtifact entry.1) with
  | .finish action => some ⟨entry.1, action⟩
  | .settled => none
  | .refuse _ => none

theorem fixOf_eq_some {probe : RecoveryProbe} {entry : ArtifactId × DispositionState}
    {fix : ArtifactFix} :
    fixOf probe entry = some fix ↔ entry.1 = fix.artifact ∧
      reconcileDisposition entry.2 (probe.forArtifact entry.1) = .finish fix.action := by
  unfold fixOf
  obtain ⟨artifact, action⟩ := fix
  cases reconcileDisposition entry.2 (probe.forArtifact entry.1) with
  | settled => simp
  | refuse reason => simp
  | finish action => simp

/-- What is left to finish, in artifact order. -/
def pending (w : RecoveryWorld) : List ArtifactFix :=
  w.view.dispositions.toList.filterMap (fixOf w.probe)

theorem outcome_of_mem {entry : ArtifactId × DispositionState}
    (h : entry ∈ w.view.dispositions.toList) :
    reconcileDisposition entry.2 (w.probe.forArtifact entry.1) = (w.status entry.1).outcome := by
  have hentry := Std.TreeMap.mem_toList_iff_getElem?_eq_some.mp h
  simp [status, ArtifactStatus.outcome, hentry, RecoveryProbe.forArtifact,
    Std.TreeMap.getD_eq_getD_getElem?]

theorem exists_entry {a : ArtifactId}
    (h : (w.status a).outcome ≠ .settled) : ∃ state, (a, state) ∈ w.view.dispositions.toList := by
  cases hstate : w.view.dispositions[a]? with
  | none =>
      have hsettled : (w.status a).outcome = .settled := by
        simp only [status, hstate]
        rfl
      exact absurd hsettled h
  | some state => exact ⟨state, Std.TreeMap.mem_toList_iff_getElem?_eq_some.mpr hstate⟩

theorem mem_pending {fix : ArtifactFix} :
    fix ∈ w.pending ↔ (w.status fix.artifact).outcome = .finish fix.action := by
  unfold pending
  rw [List.mem_filterMap]
  constructor
  · rintro ⟨entry, hentry, hsome⟩
    obtain ⟨hartifact, houtcome⟩ := fixOf_eq_some.mp hsome
    rw [← hartifact, ← outcome_of_mem hentry]
    exact houtcome
  · intro h
    have hopen : (w.status fix.artifact).outcome ≠ .settled := by
      rw [h]
      simp
    obtain ⟨state, hentry⟩ := exists_entry hopen
    exact ⟨_, hentry, fixOf_eq_some.mpr ⟨rfl, (outcome_of_mem hentry).trans h⟩⟩

theorem nodup_pending (w : RecoveryWorld) : (w.pending.map (·.artifact)).Nodup := by
  apply List.pairwise_map.mpr
  have hkeys := Std.TreeMap.distinct_keys_toList (t := w.view.dispositions)
  apply hkeys.filterMap
  intro entry entry' hne fix hfix fix' hfix' heq
  apply hne
  rw [(fixOf_eq_some.mp hfix).1, (fixOf_eq_some.mp hfix').1, heq]
  exact Std.ReflCmp.compare_self

/-- No disposition is refused: what is pending is finished, or the attempt is complete. -/
theorem walk_pending (probe : RecoveryProbe) (entries : List (ArtifactId × DispositionState))
    (fixes : List ArtifactFix)
    (h : ∀ entry ∈ entries, ∀ reason,
      reconcileDisposition entry.2 (probe.forArtifact entry.1) ≠ .refuse reason) :
    reconcileDispositions probe entries fixes =
      if (fixes ++ entries.filterMap (fixOf probe)).isEmpty then .completed
      else .finishDisposition (fixes ++ entries.filterMap (fixOf probe)) := by
  induction entries generalizing fixes with
  | nil => simp [reconcileDispositions]
  | cons entry rest ih =>
      obtain ⟨artifact, state⟩ := entry
      have hrest := fun e he => h e (List.mem_cons_of_mem _ he)
      rw [reconcileDispositions, List.filterMap_cons]
      cases houtcome : reconcileDisposition state (probe.forArtifact artifact) with
      | settled => simp only [fixOf, houtcome, ih _ hrest]
      | finish action =>
          simp only [fixOf, houtcome, ih _ hrest, List.append_assoc, List.singleton_append]
      | refuse reason => exact absurd houtcome (h _ List.mem_cons_self reason)

/-- A sealed attempt: a durable report that is not torn. -/
def Sealed (w : RecoveryWorld) : Prop :=
  w.view.started = true ∧ w.view.reported = true ∧ w.probe.tornReport = false

theorem decision_of_sealed (h : w.Sealed) :
    w.decision = reconcileDispositions w.probe w.view.dispositions.toList [] := by
  obtain ⟨hstarted, hreported, htorn⟩ := h
  simp [decision, reconcile, hstarted, hreported, htorn]

/-- What a sealed attempt decides, when nothing contradicts its dispositions. -/
theorem decision_of_pending (h : w.Sealed)
    (hrefuse : ∀ a reason, (w.status a).outcome ≠ .refuse reason) :
    w.decision = if w.pending.isEmpty then .completed else .finishDisposition w.pending := by
  rw [decision_of_sealed h, walk_pending]
  · rfl
  · intro entry hentry reason
    rw [outcome_of_mem hentry]
    exact hrefuse entry.1 reason

/-- A decision to finish is one of a sealed attempt, over what is pending. -/
theorem of_decision_finish {fixes : List ArtifactFix} (h : w.decision = .finishDisposition fixes) :
    w.Sealed ∧ (∀ a reason, (w.status a).outcome ≠ .refuse reason) ∧ fixes = w.pending := by
  have hstarted : w.view.started = true := by
    cases hstarted : w.view.started with
    | true => rfl
    | false => simp [decision, reconcile, hstarted] at h
  obtain ⟨hreported, htorn⟩ := reconcile_sealed (Or.inr ⟨fixes, h⟩)
  have hsealed : w.Sealed := ⟨hstarted, hreported, htorn⟩
  have hrefuse : ∀ a reason, (w.status a).outcome ≠ .refuse reason := by
    intro a reason hreason
    have hopen : (w.status a).outcome ≠ .settled := by
      rw [hreason]
      simp
    obtain ⟨state, hentry⟩ := exists_entry hopen
    have hwalk := (reconcileDispositions_refuses w.probe w.view.dispositions.toList []).mpr
      ⟨_, hentry, reason, (outcome_of_mem hentry).trans hreason⟩
    rw [← decision_of_sealed hsealed, h] at hwalk
    obtain ⟨_, hwalk⟩ := hwalk
    cases hwalk
  refine ⟨hsealed, hrefuse, ?_⟩
  rw [decision_of_pending hsealed hrefuse] at h
  split_ifs at h
  exact (RecoveryAction.finishDisposition.inj h).symm

/-! ### Recovering a sealed attempt -/

theorem framed_record (w : RecoveryWorld) : Framed w (w.step .recordRecovery) :=
  ⟨rfl, rfl, rfl, rfl, rfl, rfl⟩

/-- The verdict is recorded last, and a crash leaves it out or in. -/
theorem take_concat_record (effects : List RecoveryEffect) (k : Nat) (w : RecoveryWorld) :
    ((effects ++ [RecoveryEffect.recordRecovery]).take k).foldl step w =
        (effects.take k).foldl step w ∨
      ((effects ++ [RecoveryEffect.recordRecovery]).take k).foldl step w =
        ((effects.take k).foldl step w).step .recordRecovery := by
  rw [List.take_append, List.foldl_append]
  cases k - effects.length with
  | zero => exact Or.inl rfl
  | succ n => exact Or.inr (by simp)

/-- How a crash leaves a sealed attempt: its dispositions are on their way. -/
structure Underway (w w' : RecoveryWorld) : Prop where
  framed : Framed w w'
  finishing : ∀ a action, (w.status a).outcome = .finish action →
    ArtifactStatus.Reached (w.status a) action (w'.status a)
  settled : ∀ a, (w.status a).outcome = .settled → w'.status a = w.status a

theorem Underway.record {w w' : RecoveryWorld} (h : Underway w w') :
    Underway w (w'.step .recordRecovery) :=
  ⟨h.framed.trans (framed_record w'), h.finishing, h.settled⟩

theorem underway_take (w : RecoveryWorld) (k : Nat) :
    Underway w (((finishEffects w.pending).take k).foldl step w) := by
  refine ⟨framed_finish w.pending k w, ?_, ?_⟩
  · intro a action h
    exact (reached_take (nodup_pending w) k w a).1 ⟨a, action⟩ (mem_pending.mpr h) rfl
  · intro a h
    apply (reached_take (nodup_pending w) k w a).2
    rintro fix hfix rfl
    rw [mem_pending.mp hfix] at h
    cases h

/-- The effects of a sealed attempt that nothing contradicts, with nothing to finish or some. -/
theorem effects_of_sealed (h : w.Sealed)
    (hrefuse : ∀ a reason, (w.status a).outcome ≠ .refuse reason) :
    w.decision.effects = finishEffects w.pending ++ [.recordRecovery] := by
  rw [decision_of_pending h hrefuse]
  cases hpending : w.pending with
  | nil => rfl
  | cons fix rest => rfl

theorem underway_crashed (h : w.Sealed)
    (hrefuse : ∀ a reason, (w.status a).outcome ≠ .refuse reason) (k : Nat) :
    Underway w (w.crashed k) := by
  rw [crashed, effects_of_sealed h hrefuse]
  rcases take_concat_record (finishEffects w.pending) k w with heq | heq
  · rw [heq]
    exact underway_take w k
  · rw [heq]
    exact (underway_take w k).record

/-- The end that a sealed attempt is brought to. -/
structure Settles (w w' : RecoveryWorld) : Prop where
  framed : Framed w w'
  recorded : w'.view.recoveryRecorded = true
  status : ∀ a, w'.status a = (w.status a).finished

theorem settles_recover (h : w.Sealed)
    (hrefuse : ∀ a reason, (w.status a).outcome ≠ .refuse reason) : Settles w w.recover := by
  have hrecover : w.recover =
      ((finishEffects w.pending).foldl step w).step .recordRecovery := by
    rw [recover, effects_of_sealed h hrefuse, List.foldl_append]
    rfl
  have htake := underway_take w (finishEffects w.pending).length
  rw [List.take_length] at htake
  rw [hrecover]
  refine ⟨htake.framed.trans (framed_record _), rfl, ?_⟩
  intro a
  change ((finishEffects w.pending).foldl step w).status a = _
  cases houtcome : (w.status a).outcome with
  | settled => rw [htake.settled a houtcome, ArtifactStatus.finished_of_settled houtcome]
  | finish action =>
      have hfix : ArtifactFix.mk a action ∈ w.pending := mem_pending.mpr houtcome
      rw [ArtifactStatus.finished_of_finish houtcome]
      exact status_finish (nodup_pending w) w hfix
  | refuse reason => exact absurd houtcome (hrefuse a reason)

theorem Sealed.of_framed {w w' : RecoveryWorld} (h : w.Sealed) (hframed : Framed w w') :
    w'.Sealed :=
  ⟨hframed.started.trans h.1, hframed.reported.trans h.2.1, hframed.torn.trans h.2.2⟩

/-- On its way, an attempt is brought to the same end. -/
theorem Underway.settles {w w' : RecoveryWorld} (h : w.Sealed)
    (hrefuse : ∀ a reason, (w.status a).outcome ≠ .refuse reason) (hway : Underway w w') :
    Settles w w'.recover := by
  have hreached : ∀ a, (∀ reason, (w'.status a).outcome ≠ .refuse reason) ∧
      (w'.status a).finished = (w.status a).finished := by
    intro a
    cases houtcome : (w.status a).outcome with
    | settled =>
        rw [hway.settled a houtcome]
        exact ⟨hrefuse a, rfl⟩
    | finish action => exact (hway.finishing a action houtcome).finished houtcome
    | refuse reason => exact absurd houtcome (hrefuse a reason)
  have hend := settles_recover (h.of_framed hway.framed) fun a => (hreached a).1
  refine ⟨hway.framed.trans hend.framed, hend.recorded, ?_⟩
  intro a
  rw [hend.status, (hreached a).2]

/-- At the end there is nothing left to decide. -/
theorem Settles.decision {w w' : RecoveryWorld} (h : w.Sealed)
    (hrefuse : ∀ a reason, (w.status a).outcome ≠ .refuse reason) (hend : Settles w w') :
    w'.decision = .completed := by
  have hsettled : ∀ a, (w'.status a).outcome = .settled := by
    intro a
    rw [hend.status]
    exact ArtifactStatus.outcome_finished (hrefuse a)
  have hpending : w'.pending = [] := by
    apply List.eq_nil_iff_forall_not_mem.mpr
    intro fix hfix
    rw [mem_pending, hsettled] at hfix
    cases hfix
  rw [decision_of_pending (h.of_framed hend.framed), hpending]
  · rfl
  · intro a reason hreason
    rw [hsettled] at hreason
    cases hreason

/-! ### Rolling back -/

/-- A world with other orphans and perhaps a recorded verdict. -/
def rolled (w : RecoveryWorld) (recorded : Bool) (orphans : List QuarantineRecord) :
    RecoveryWorld :=
  ⟨{ w.view with recoveryRecorded := recorded }, { w.probe with orphans := orphans }⟩

theorem of_decision_rollBack {orphans : List QuarantineRecord}
    (h : w.decision = .rollBack orphans) :
    orphans = w.probe.orphans ∧
      ∀ recorded rest, (w.rolled recorded rest).decision = .rollBack rest := by
  have hstarted : w.view.started = true := by
    cases hstarted : w.view.started with
    | true => rfl
    | false => simp [decision, reconcile, hstarted] at h
  have htorn : w.probe.tornReport = false := by
    cases htorn : w.probe.tornReport with
    | false => rfl
    | true => simp [decision, reconcile, hstarted, htorn] at h
  have hwalk : ∀ entries fixes, reconcileDispositions w.probe entries fixes ≠ .rollBack orphans := by
    intro entries
    induction entries with
    | nil =>
        intro fixes hfixes
        rw [reconcileDispositions] at hfixes
        split_ifs at hfixes
    | cons entry rest ih =>
        intro fixes hfixes
        rw [reconcileDispositions] at hfixes
        split at hfixes
        · exact ih _ hfixes
        · exact ih _ hfixes
        · cases hfixes
  have hreported : w.view.reported = false := by
    cases hreported : w.view.reported with
    | false => rfl
    | true =>
        simp only [decision, reconcile, hstarted, htorn, hreported] at h
        exact absurd h (hwalk _ _)
  have hpromoted : w.probe.anyPromoted = false := by
    cases hpromoted : w.probe.anyPromoted with
    | false => rfl
    | true => simp [decision, reconcile, hstarted, htorn, hreported, hpromoted] at h
  constructor
  · simp only [decision, reconcile, hstarted, htorn, hreported, hpromoted] at h
    exact (RecoveryAction.rollBack.inj h).symm
  · intro recorded rest
    change (if !w.view.started then _ else if w.probe.tornReport then _
      else if !w.view.reported then if w.probe.anyPromoted then _ else RecoveryAction.rollBack rest
      else _) = _
    rw [hstarted, htorn, hreported, hpromoted]
    rfl

theorem foldl_sweep (orphans : List QuarantineRecord) (w : RecoveryWorld) :
    (orphans.map RecoveryEffect.sweep).foldl step w =
      w.rolled w.view.recoveryRecorded (w.probe.orphans.filter (· ∉ orphans)) := by
  induction orphans generalizing w with
  | nil => simp [rolled]
  | cons orphan rest ih =>
      rw [List.map_cons, List.foldl_cons, ih]
      simp only [step, rolled, List.filter_filter]
      congr 2
      apply List.filter_congr
      intro o _
      simp [Bool.and_comm]

theorem recover_rollBack {orphans : List QuarantineRecord}
    (h : w.decision = .rollBack orphans) : w.recover = w.rolled true [] := by
  obtain ⟨rfl, -⟩ := of_decision_rollBack h
  have heffects : w.decision.effects =
      w.probe.orphans.map RecoveryEffect.sweep ++ [.recordRecovery] := by
    rw [h]
    rfl
  rw [recover, heffects, List.foldl_append, foldl_sweep]
  have hnone : w.probe.orphans.filter (· ∉ w.probe.orphans) = [] := by
    apply List.filter_eq_nil_iff.mpr
    intro o ho
    simp [ho]
  rw [hnone]
  rfl

theorem crashed_rollBack {orphans : List QuarantineRecord}
    (h : w.decision = .rollBack orphans) (k : Nat) :
    ∃ recorded rest, w.crashed k = w.rolled recorded rest := by
  have heffects : w.decision.effects =
      orphans.map RecoveryEffect.sweep ++ [.recordRecovery] := by
    rw [h]
    rfl
  rw [crashed, heffects]
  rcases take_concat_record (orphans.map RecoveryEffect.sweep) k w with heq | heq
  · rw [heq, ← List.map_take, foldl_sweep]
    exact ⟨_, _, rfl⟩
  · rw [heq, ← List.map_take, foldl_sweep]
    exact ⟨_, _, rfl⟩

/-! ### Convergence -/

/-- The same events were folded, and the host finds the same. -/
structure Same (w w' : RecoveryWorld) : Prop where
  framed : Framed w w'
  recorded : w'.view.recoveryRecorded = w.view.recoveryRecorded
  status : ∀ a, w'.status a = w.status a

theorem Same.refl (w : RecoveryWorld) : Same w w :=
  ⟨.refl w, rfl, fun _ => rfl⟩

theorem Same.trans {w₁ w₂ w₃ : RecoveryWorld} (h : Same w₁ w₂) (h' : Same w₂ w₃) : Same w₁ w₃ :=
  ⟨h.framed.trans h'.framed, h'.recorded.trans h.recorded,
    fun a => (h'.status a).trans (h.status a)⟩

/-- Both were settled from one world. -/
theorem Settles.same {w w₁ w₂ : RecoveryWorld} (h₁ : Settles w w₁) (h₂ : Settles w w₂) :
    Same w₁ w₂ := by
  refine ⟨?_, h₂.recorded.trans h₁.recorded.symm, ?_⟩
  · exact ⟨h₂.framed.attempt.trans h₁.framed.attempt.symm,
      h₂.framed.planId.trans h₁.framed.planId.symm,
      h₂.framed.started.trans h₁.framed.started.symm,
      h₂.framed.reported.trans h₁.framed.reported.symm,
      h₂.framed.torn.trans h₁.framed.torn.symm,
      h₂.framed.orphans.trans h₁.framed.orphans.symm⟩
  · intro a
    rw [h₁.status, h₂.status]

end RecoveryWorld

/-- What is left of an action once it is applied. -/
def RecoveryAction.settled : RecoveryAction → RecoveryAction
  | rollBack _ => rollBack []
  | finishDisposition _ => completed
  | absent => absent
  | completed => completed
  | canonicalRefusal reason => canonicalRefusal reason

theorem RecoveryAction.classification_settled (action : RecoveryAction) :
    action.settled.classification = action.classification := by
  cases action <;> rfl

namespace RecoveryWorld

/-- An action without work only records its verdict, which no decision reads. -/
theorem recover_recorded (h : w.decision.effects = [.recordRecovery])
    (k : Nat) : w.recover = w.step .recordRecovery ∧
      (w.crashed k = w ∨ w.crashed k = w.step .recordRecovery) := by
  rw [recover, crashed, h]
  refine ⟨rfl, ?_⟩
  cases k with
  | zero => exact Or.inl rfl
  | succ k => exact Or.inr (by simp)

/-- One recovery, and one after a crash. -/
theorem converges (w : RecoveryWorld) (k : Nat) :
    w.recover.decision = w.decision.settled ∧ Same w.recover (w.crashed k).recover := by
  have hverdict : w.decision.effects = [.recordRecovery] →
      w.recover.decision = w.decision ∧ Same w.recover (w.crashed k).recover := by
    intro heffects
    obtain ⟨hrecover, hcrash⟩ := recover_recorded heffects k
    refine ⟨by rw [hrecover]; rfl, ?_⟩
    rcases hcrash with hcrash | hcrash
    · rw [hcrash]
      exact .refl _
    · have hagain : (w.step .recordRecovery).recover =
          (w.step .recordRecovery).step .recordRecovery :=
        (recover_recorded (w := w.step .recordRecovery) heffects 0).1
      rw [hcrash, hagain, hrecover]
      exact ⟨framed_record _, rfl, fun _ => rfl⟩
  cases hdecision : w.decision with
  | absent =>
      have hnone : w.decision.effects = [] := by
        rw [hdecision]
        rfl
      rw [recover, crashed, hnone]
      refine ⟨hdecision, ?_⟩
      rw [List.take_nil, List.foldl_nil, recover, hnone]
      exact .refl _
  | completed =>
      have h := hverdict (by rw [hdecision]; rfl)
      exact ⟨h.1.trans hdecision, h.2⟩
  | canonicalRefusal reason =>
      have h := hverdict (by rw [hdecision]; rfl)
      exact ⟨h.1.trans hdecision, h.2⟩
  | rollBack orphans =>
      obtain ⟨-, hrolled⟩ := of_decision_rollBack hdecision
      obtain ⟨recorded, rest, hcrash⟩ := crashed_rollBack hdecision k
      rw [hcrash, recover_rollBack hdecision, recover_rollBack (hrolled recorded rest)]
      exact ⟨hrolled true [], .refl _⟩
  | finishDisposition fixes =>
      obtain ⟨hsealed, hrefuse, -⟩ := of_decision_finish hdecision
      have hend := settles_recover hsealed hrefuse
      have hway := underway_crashed hsealed hrefuse k
      exact ⟨hend.decision hsealed hrefuse, hend.same (hway.settles hsealed hrefuse)⟩

/-- The verdict is recorded, if the action has one. -/
theorem recorded_recover (w : RecoveryWorld) :
    w.recover.view.recoveryRecorded =
      (w.view.recoveryRecorded || w.decision.classification.isSome) := by
  cases hverdict : w.decision.classification with
  | none =>
      have habsent : w.decision = .absent := by
        cases haction : w.decision <;> rw [haction] at hverdict <;> first | rfl | cases hverdict
      rw [recover, habsent]
      simp [RecoveryAction.effects, RecoveryAction.classification]
  | some verdict =>
      have heffects : ∃ work, w.decision.effects = work ++ [.recordRecovery] := by
        cases haction : w.decision with
        | absent =>
            rw [haction] at hverdict
            cases hverdict
        | completed | canonicalRefusal _ | rollBack _ | finishDisposition _ => exact ⟨_, rfl⟩
      obtain ⟨work, heffects⟩ := heffects
      rw [recover, heffects, List.foldl_append]
      simp [step, RunView.observe]

/-- For every view and probe: once the action is applied and its verdict recorded, the same
decision has nothing left to do and gives the same verdict; and however often a recovery
crashes after any of its effects, the next complete one reaches the same world. -/
theorem reconciliation_converges (w : RecoveryWorld) :
    w.recover.decision = w.decision.settled ∧
    w.recover.decision.classification = w.decision.classification ∧
    w.recover.view.recoveryRecorded =
      (w.view.recoveryRecorded || w.decision.classification.isSome) ∧
    (∀ orphans, w.recover.decision = .rollBack orphans → orphans = []) ∧
    (∀ fixes, w.recover.decision ≠ .finishDisposition fixes) ∧
    ∀ crashes : List Nat, Same w.recover (crashes.foldl crashed w).recover := by
  have hdecision := (converges w 0).1
  refine ⟨hdecision, ?_, ?_, ?_, ?_, ?_⟩
  · rw [hdecision]
    exact RecoveryAction.classification_settled w.decision
  · exact recorded_recover w
  · intro orphans h
    rw [hdecision] at h
    cases haction : w.decision with
    | rollBack swept =>
        rw [haction] at h
        exact (RecoveryAction.rollBack.inj h).symm
    | absent | completed | canonicalRefusal _ | finishDisposition _ =>
        rw [haction] at h
        cases h
  · intro fixes h
    rw [hdecision] at h
    cases haction : w.decision <;> rw [haction] at h <;> cases h
  · intro crashes
    induction crashes generalizing w with
    | nil => exact .refl _
    | cons k rest ih => exact (converges w k).2.trans (ih (w.crashed k) (converges _ 0).1)

end RecoveryWorld

end Batpak.Bvisor
