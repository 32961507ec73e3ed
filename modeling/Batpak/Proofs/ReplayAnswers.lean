/-
Module: Batpak.Proofs.ReplayAnswers
Purpose: What a projection call answers and what it leaves behind.
Trusted boundary: none
Main exports: executePlan_answer, projectInner_answer
-/
import Batpak.Store.Replay

namespace Batpak.Store

open OverlaidIndex

variable {ε σ : Type}

/-! ### What a call leaves of the index -/

section Frame

variable {p : Projection ε σ} {faults : CacheFaults} {entity : String} {st : ProjectionStore ε}
  {plan : ProjectionReplayPlan}

/-- What holds of the index survives a call when it survives keeping a cached state. -/
structure KeptByCaches (p : Projection ε σ) (entity : String) (I : OverlaidIndex → Prop) :
    Prop where
  store : ∀ ix bytes watermark, I ix → I (ix.storeCachedProjection entity p.typeId bytes watermark)

namespace KeptByCaches

variable {I : OverlaidIndex → Prop} (h : KeptByCaches p entity I)

include h

theorem storeProjectionValue (value : σ) (hst : I st.index) :
    I (storeProjectionValue p faults entity plan value st).index := by
  unfold Store.storeProjectionValue
  split
  · exact hst
  · apply h.store
    unfold ProjectionStore.cachePut
    split
    · exact hst
    · exact hst

theorem executeFullReplay (hst : I st.index) :
    I (executeFullReplay p faults entity plan st).2.index := by
  unfold Store.executeFullReplay
  split
  · exact hst
  · dsimp only
    split
    · exact hst
    · dsimp only
      split
      · exact h.storeProjectionValue _ hst
      · exact hst

theorem finishIncremental (watermark : Nat) (cached : σ) (hst : I st.index) :
    I (finishIncremental p faults entity plan watermark cached st).2.index := by
  unfold Store.finishIncremental
  split
  · exact hst
  · split
    · exact hst
    · exact h.storeProjectionValue _ hst

omit h in
theorem finishHit (generation watermark : Nat) (cached : σ) (hst : I st.index) :
    I (finishHit p entity generation watermark cached st).2.index := by
  unfold Store.finishHit
  split
  · exact hst
  · exact hst

theorem executeExternalCachePath (hst : I st.index) :
    I (executeExternalCachePath p faults entity plan st).2.index := by
  unfold Store.executeExternalCachePath
  split
  · exact h.executeFullReplay hst
  · split
    · exact h.executeFullReplay hst
    · split
      · apply finishHit
        dsimp only
        split
        · exact hst
        · exact h.store _ _ _ hst
      · split
        · exact h.finishIncremental _ _ hst
        · exact h.executeFullReplay hst

theorem executePlan (hst : I st.index) : I (executePlan p faults entity plan st).2.index := by
  have huncached : I (if st.cache.isNone then Store.executeFullReplay p faults entity plan st
      else Store.executeExternalCachePath p faults entity plan st).2.index := by
    split
    · exact h.executeFullReplay hst
    · exact h.executeExternalCachePath hst
  unfold Store.executePlan
  dsimp only
  split
  · exact huncached
  · split
    · split
      · exact finishHit _ _ _ hst
      · exact h.executeFullReplay hst
    · split
      · split
        · exact h.finishIncremental _ _ hst
        · exact h.executeFullReplay hst
      · exact huncached

theorem projectInner (hst : I st.index) : I (projectInner p faults entity st).2.index := by
  unfold Store.projectInner
  split
  · split
    · exact hst
    · exact hst
  · exact h.executePlan hst

theorem projectIfChanged (lastSeen : Nat) (hst : I st.index) :
    I (projectIfChanged p faults entity lastSeen st).2.index := by
  unfold Store.projectIfChanged
  split
  · exact hst
  · exact h.projectInner hst

end KeptByCaches

end Frame

/-! ### What a call answers -/

section Answer

variable (p : Projection ε σ) (faults : CacheFaults) (entity : String)

/-- The state of the external cache a call starts from, with the items still to be applied. -/
def externalStartingPoint (plan : ProjectionReplayPlan) (st : ProjectionStore ε) :
    Option (σ × List ProjectionReplayItem) :=
  (st.cacheGet faults (p.cacheKey entity)).bind fun row =>
    (p.decode row.bytes).bind fun cached =>
      if row.watermark = plan.watermark then some (cached, [])
      else if row.watermark < plan.watermark ∧ p.supportsIncrementalApply ∧
          st.incrementalProjection then
        some (cached, plan.items.filter fun item => row.watermark < item.globalSequence)
      else none

/-- The remembered state a call starts from, with the items still to be applied; `none` when
it replays the plan in full. -/
def startingPoint (plan : ProjectionReplayPlan) (st : ProjectionStore ε) :
    Option (σ × List ProjectionReplayItem) :=
  let external := if st.cache.isNone then none else externalStartingPoint p faults entity plan st
  match st.index.cachedProjection entity p.typeId with
  | none => external
  | some slot =>
      if slot.watermark = plan.watermark ∧ slot.generation = plan.generation then
        (p.decode slot.bytes).map fun cached => (cached, [])
      else if p.supportsIncrementalApply ∧ st.incrementalProjection then
        (p.decode slot.bytes).map fun cached =>
          (cached, plan.items.filter fun item => slot.watermark < item.globalSequence)
      else external

/-- A remembered state with the given items applied to it. -/
def bringUp (st : ProjectionStore ε) (cached : σ) (items : List ProjectionReplayItem) :
    Except StoreError σ :=
  items.foldlM
    (fun state item => (st.read item.diskPos).map fun event => p.applyEvent state event) cached

/-- The state a call under a plan validates. -/
def plannedState (plan : ProjectionReplayPlan) (st : ProjectionStore ε) :
    Except StoreError (Option σ) :=
  match startingPoint p faults entity plan st with
  | none => (st.readBatch plan.items).map p.fromEvents
  | some (cached, items) => (bringUp p st cached items).map some

/-- The state a call validates; no state without an indexed event of its kinds. -/
def separateState (st : ProjectionStore ε) : Except StoreError (Option σ) :=
  match st.index.projectionReplayPlan entity p.relevantEventKinds with
  | none => .ok none
  | some plan => plannedState p faults entity plan st

/-- The answer of a call for the state it computed. -/
def answerFor (generation : Nat) (sequence : Option Nat) :
    Except StoreError (Option σ) → Except ProjectionError (ProjectionOutcome σ)
  | .error e => .error (.store e)
  | .ok state => (validateProjectionState p entity state).map fun _ => ⟨state, generation, sequence⟩

variable {p faults entity} {plan : ProjectionReplayPlan} {st : ProjectionStore ε}

theorem executeFullReplay_answer : (executeFullReplay p faults entity plan st).1 =
    answerFor p entity plan.generation (some plan.watermark)
      ((st.readBatch plan.items).map p.fromEvents) := by
  unfold executeFullReplay
  cases st.readBatch plan.items with
  | error e => rfl
  | ok events =>
      dsimp only
      change _ = Except.map _ (validateProjectionState p entity (p.fromEvents events))
      cases validateProjectionState p entity (p.fromEvents events) with
      | error e => rfl
      | ok _ => rfl

theorem finishIncremental_answer (watermark : Nat) (cached : σ) :
    (finishIncremental p faults entity plan watermark cached st).1 =
      answerFor p entity plan.generation (some plan.watermark) ((bringUp p st cached
        (plan.items.filter fun item => watermark < item.globalSequence)).map some) := by
  have happlied : applyIncrementalEvents p plan watermark cached st =
      bringUp p st cached (plan.items.filter fun item => watermark < item.globalSequence) := rfl
  unfold finishIncremental
  rw [happlied]
  cases bringUp p st cached (plan.items.filter fun item => watermark < item.globalSequence) with
  | error e => rfl
  | ok state =>
      dsimp only
      change _ = Except.map _ (validateProjectionState p entity (some state))
      cases validateProjectionState p entity (some state) with
      | error e => rfl
      | ok _ => rfl

theorem finishHit_answer (generation watermark : Nat) (cached : σ) (st' : ProjectionStore ε) :
    (finishHit p entity generation watermark cached st').1 =
      answerFor p entity generation (some watermark) ((bringUp p st cached []).map some) := by
  unfold finishHit
  change _ = Except.map _ (validateProjectionState p entity (some cached))
  cases validateProjectionState p entity (some cached) with
  | error e => rfl
  | ok _ => rfl

theorem executeExternalCachePath_answer :
    (executeExternalCachePath p faults entity plan st).1 =
      answerFor p entity plan.generation (some plan.watermark)
        (match externalStartingPoint p faults entity plan st with
          | none => (st.readBatch plan.items).map p.fromEvents
          | some (cached, items) => (bringUp p st cached items).map some) := by
  unfold executeExternalCachePath externalStartingPoint
  cases st.cacheGet faults (p.cacheKey entity) with
  | none => exact executeFullReplay_answer
  | some row =>
      dsimp only [Option.bind_some]
      cases p.decode row.bytes with
      | none => exact executeFullReplay_answer
      | some cached =>
          dsimp only [Option.bind_some]
          split
          · rename_i hfresh
            rw [hfresh]
            exact finishHit_answer ..
          · split
            · exact finishIncremental_answer ..
            · exact executeFullReplay_answer

/-- A call under a plan validates the planned state. -/
theorem executePlan_answer : (executePlan p faults entity plan st).1 =
    answerFor p entity plan.generation (some plan.watermark) (plannedState p faults entity plan st) := by
  unfold executePlan plannedState startingPoint
  dsimp only
  have huncached : (if st.cache.isNone then executeFullReplay p faults entity plan st
      else executeExternalCachePath p faults entity plan st).1 =
      answerFor p entity plan.generation (some plan.watermark)
        (match (if st.cache.isNone then none else externalStartingPoint p faults entity plan st) with
          | none => (st.readBatch plan.items).map p.fromEvents
          | some (cached, items) => (bringUp p st cached items).map some) := by
    split
    · exact executeFullReplay_answer
    · exact executeExternalCachePath_answer
  cases st.index.cachedProjection entity p.typeId with
  | none => exact huncached
  | some slot =>
      dsimp only
      split
      · rename_i hfresh
        rw [hfresh.1, hfresh.2]
        cases p.decode slot.bytes with
        | none => exact executeFullReplay_answer
        | some cached => exact finishHit_answer ..
      · split
        · cases p.decode slot.bytes with
          | none => exact executeFullReplay_answer
          | some cached => exact finishIncremental_answer ..
        · exact huncached

/-- A call validates the separate state and returns it when its contract accepts it. -/
theorem projectInner_answer (p : Projection ε σ) (faults : CacheFaults) (entity : String)
    (st : ProjectionStore ε) : ∃ generation sequence, (projectInner p faults entity st).1 =
    answerFor p entity generation sequence (separateState p faults entity st) ∧
      generation = ((st.index.projectionReplayPlan entity p.relevantEventKinds).map
        (·.generation)).getD ((st.index.entityGeneration entity).getD 0) := by
  unfold projectInner separateState
  cases st.index.projectionReplayPlan entity p.relevantEventKinds with
  | none =>
      refine ⟨(st.index.entityGeneration entity).getD 0, none, ?_, rfl⟩
      dsimp only [answerFor]
      cases validateProjectionState p entity none with
      | error e => rfl
      | ok _ => rfl
  | some plan => exact ⟨_, _, executePlan_answer, rfl⟩

theorem answerFor_ok {generation : Nat} {sequence : Option Nat}
    {computed : Except StoreError (Option σ)} {o : ProjectionOutcome σ} :
    answerFor p entity generation sequence computed = .ok o ↔
      computed = .ok o.state ∧ validateProjectionState p entity o.state = .ok () ∧
        o.returnedGeneration = generation ∧ o.appliedSequence = sequence := by
  cases computed with
  | error e => simp [answerFor]
  | ok state =>
      obtain ⟨final, generation', sequence'⟩ := o
      dsimp only [answerFor]
      constructor
      · intro h
        cases hvalid : validateProjectionState p entity state with
        | error e =>
            rw [hvalid] at h
            cases h
        | ok _ =>
            rw [hvalid] at h
            cases h
            exact ⟨rfl, hvalid, rfl, rfl⟩
      · rintro ⟨hstate, hvalid, rfl, rfl⟩
        cases hstate
        rw [hvalid]
        rfl

/-- A call returns a state exactly when it is the one the call computes and the contract
accepts it. -/
theorem project_ok {state : Option σ} : (project p faults entity st).1 = .ok state ↔
    separateState p faults entity st = .ok state ∧
      validateProjectionState p entity state = .ok () := by
  obtain ⟨generation, sequence, hanswer, -⟩ := projectInner_answer p faults entity st
  unfold project
  dsimp only
  rw [hanswer]
  constructor
  · intro h
    cases ho : answerFor p entity generation sequence (separateState p faults entity st) with
    | error e =>
        rw [ho] at h
        cases h
    | ok o =>
        rw [ho] at h
        cases h
        obtain ⟨hstate, hvalid, -⟩ := answerFor_ok.mp ho
        exact ⟨hstate, hvalid⟩
  · rintro ⟨hstate, hvalid⟩
    have ho : answerFor p entity generation sequence (separateState p faults entity st) =
        .ok ⟨state, generation, sequence⟩ := answerFor_ok.mpr ⟨hstate, hvalid, rfl, rfl⟩
    rw [ho]
    rfl

end Answer

end Batpak.Store
