/-
Module: Batpak.Proofs.MachineRules
Purpose: The invariant rule of the phase machine: what every start, phase and service command keeps
  is kept by every step.
Trusted boundary: none
Main exports: MachineRules, MachineRules.machineStep
-/
import Batpak.Proofs.ServiceRules
import Batpak.Proofs.WriterEffects
import Batpak.Store.WriterPhases

namespace Batpak.Store

open Batpak.Util

/-! ### The starts of a command -/

section Starts

variable {I : WriterCore → Prop} {rt : Runtime}

/-- The start of an append accepts the event it has staged, at the next sequence. -/
theorem startAppend_rule {Q : StagedCommittedEvent → WriterCore → Prop} {req : AppendRequest}
    (t : Ticket) (hreplay : Keeps I (replayKey rt req))
    (haccept : ∀ s (st : StagedCommittedEvent), I s →
      st.globalSequence = s.index.gate.allocated →
        let s' := { s with
          watermark := s.watermark.advanceAcceptedOnLane st.frame.dagLane st.point }
        I s' ∧ Q st s') :
    Triple I (startAppend rt t req)
      (fun r s => I s ∧ ∀ st length, r = .inr (st, length) → Q st s) I := by
  refine Triple.read fun s => ?_
  refine Triple.bind (liftExcept_keeps _) fun _ => ?_
  refine Triple.bind hreplay fun known => ?_
  cases known with
  | some receipt => exact Triple.pure fun s hs => ⟨hs, fun _ _ h => by cases h⟩
  | none =>
      refine Triple.bind (Q := fun st s => I s ∧ Q st s) ?_ fun st => ?_
      · intro s hs
        unfold acceptAppend
        split
        · exact hs
        · rename_i st hst
          exact haccept s st hs (stageAppend_ok hst).2.2.2.2.1
      · refine checked (fun s hs => hs.1) fun length => ?_
        refine Triple.pure fun s hs => ⟨hs.1, fun st' length' h => ?_⟩
        cases h
        exact hs.2

/-- Staging a reserved batch accepts one item after the other, each at a reserved sequence. -/
theorem precomputeBatchItems_rule {S : List StagedCommittedEvent → WriterCore → Prop}
    {ctx : BatchContext}
    (haccept : ∀ s staged (st : StagedCommittedEvent), I s → S staged s →
      st.globalSequence = ctx.firstSeq + staged.length →
      st.globalSequence < s.index.gate.allocated →
        let s' := { s with
          watermark := s.watermark.advanceAcceptedOnLane st.frame.dagLane st.point }
        I s' ∧ S (staged ++ [st]) s')
    (items : List BatchAppendItem) :
    ∀ (computed : List StagedCommittedEvent) (states : BatchEntityStates),
    Triple (fun s => I s ∧ S computed s ∧
        ctx.firstSeq + computed.length + items.length ≤ s.index.gate.allocated)
      (precomputeBatchItems rt ctx items computed states)
      (fun staged s => I s ∧ S staged s ∧ staged.length = computed.length + items.length) I := by
  induction items with
  | nil => exact fun computed states => Triple.pure fun s hs => ⟨hs.1, hs.2.1, rfl⟩
  | cons item rest ih =>
      intro computed states
      unfold precomputeBatchItems
      -- the checks before the acceptance leave the state alone
      refine Triple.read fun s => ?_
      refine checked (fun s hs => hs.1) fun state => ?_
      refine checked (fun s hs => hs.1) fun causation => ?_
      refine checked (fun s hs => hs.1) fun nextClock => ?_
      refine Triple.bind (Triple.modify fun s hs => ?_) fun _ => Triple.onReturn (ih _ _)
        (fun staged s hs => ⟨hs.1, hs.2.1, ?_⟩)
      · obtain ⟨hs, hstaged, hroom⟩ := hs
        rw [List.length_cons] at hroom
        have hreserved : ctx.firstSeq + computed.length < s.index.gate.allocated := by omega
        obtain ⟨hs', hstaged'⟩ := haccept s computed
          (stageItem rt ctx computed.length item state causation) hs hstaged rfl hreserved
        refine ⟨hs', hstaged', ?_⟩
        rw [List.length_append, List.length_singleton]
        change _ ≤ s.index.gate.allocated
        omega
      · rw [hs.2.2, List.length_append, List.length_singleton, List.length_cons]
        omega

/-- The start of a batch reserves a sequence for every item and stages them. -/
theorem startBatch_rule {S : Nat → List StagedCommittedEvent → WriterCore → Prop}
    {items : List BatchAppendItem} (cfg : StoreConfig) (t : Ticket) (nowUs : Int)
    (hkeys : Keeps I (admitBatchKeys items))
    (hreserve : ∀ s, 0 < items.length → I s →
      let s' := { s with index := { s.index with gate := s.index.gate.reserve items.length } }
      I s' ∧ S s.index.gate.allocated [] s')
    (haccept : ∀ s first staged (st : StagedCommittedEvent), I s → S first staged s →
      st.globalSequence = first + staged.length → st.globalSequence < s.index.gate.allocated →
        let s' := { s with
          watermark := s.watermark.advanceAcceptedOnLane st.frame.dagLane st.point }
        I s' ∧ S first (staged ++ [st]) s') :
    Triple I (startBatch cfg rt t nowUs items)
      (fun r s => I s ∧ ∀ plan, r = .inr plan → S plan.firstSeq plan.staged s ∧
        plan.staged.length = plan.count ∧ plan.staged ≠ []) I := by
  refine Triple.bind (liftExcept_keeps _) fun _ => ?_
  by_cases hempty : items = []
  · subst hempty
    exact Triple.pure fun s hs => ⟨hs, fun _ h => by cases h⟩
  rw [if_neg (by simpa using hempty)]
  refine Triple.bind (liftExcept_keeps _) fun _ => ?_
  refine Triple.read fun s => ?_
  refine Triple.bind (liftExcept_keeps _) fun cached => ?_
  cases cached with
  | some receipts => exact Triple.pure fun s hs => ⟨hs, fun _ h => by cases h⟩
  | none =>
      refine Triple.bind hkeys fun _ => ?_
      refine Triple.bind (Q := fun first s => I s ∧ S first [] s ∧
        first + items.length ≤ s.index.gate.allocated) ?_ fun first => ?_
      · intro s hs
        obtain ⟨hs', hnone⟩ := hreserve s (List.length_pos_of_ne_nil hempty) hs
        exact ⟨hs', hnone, Nat.le_refl _⟩
      refine Triple.bind (Triple.onError (batchFailedAt_triple 0 (liftExcept_keeps _))
        fun s hs => hs.1) fun nowMs => ?_
      refine Triple.read fun s => ?_
      refine Triple.bind (Triple.conseq (precomputeBatchItems_rule (S := S first)
        (fun s staged st => haccept s first staged st) items [] [])
        (fun s hs => ⟨hs.1, hs.2.1, hs.2.2⟩) (fun _ s hs => hs) fun s hs => hs) fun staged => ?_
      refine checked (fun s hs => hs.1) fun _ => ?_
      refine Triple.pure fun s hs => ⟨hs.1, fun plan hplan => ?_⟩
      cases hplan
      obtain ⟨-, hstaged, hlength⟩ := hs
      rw [List.length_nil, Nat.zero_add] at hlength
      refine ⟨hstaged, hlength, ?_⟩
      rintro rfl
      exact hempty (List.length_eq_zero_iff.mp hlength.symm)

end Starts

/-! ### The machine -/

/-- A sync runs only in states `S` allows, a phase only in states `R` allows. -/
def StepAllowed (S : Bool → WriterCore → Prop) (R : WriterCore → Stage → Prop)
    (m : WriterMachine) : MachineStep → Prop
  | .start (.command loop q) => commandSyncs loop q.command = true → S q.faults.sync m.core
  | .start (.periodicSync fails) => S fails m.core
  | .start (.completeShutdown _ flt) => S flt.sync m.core
  | .advance => R m.core m.stage

/-- What has to be shown of an invariant `I` of the core and of the facts `J` the command in
progress relies on. -/
structure MachineRules (cfg : StoreConfig) (rt : Runtime) (I : WriterCore → Prop)
    (J R : WriterCore → Stage → Prop) (S : Bool → WriterCore → Prop) : Prop where
  service : ServiceRules I S
  idle : ∀ {s}, I s → J s .idle
  deliver : ∀ {s} t reply pending, I s → I (deliver t reply pending s)
  startAppend : ∀ t req, Triple I (startAppend rt t req)
    (fun r s => I s ∧ ∀ keyed st length, r = .inr (st, length) → J s (.accepted t keyed st length))
    I
  startBatch : ∀ t nowUs items, Triple I (startBatch cfg rt t nowUs items)
    (fun r s => I s ∧ ∀ plan, r = .inr plan → J s (.batchStaged t plan)) I
  phase : ∀ {s stage}, I s → J s stage → R s stage →
    Post (fun stage s => I s ∧ J s stage) I (phase cfg rt stage s)

namespace MachineRules

variable {cfg : StoreConfig} {rt : Runtime} {I : WriterCore → Prop}
  {J R : WriterCore → Stage → Prop} {S : Bool → WriterCore → Prop} {s : WriterCore}

/-- The core is in order, and so is the command in progress. -/
def Holds (I : WriterCore → Prop) (J : WriterCore → Stage → Prop) (m : WriterMachine) : Prop :=
  I m.core ∧ J m.core m.stage

theorem settled (h : MachineRules cfg rt I J R S) (hs : I s) : Holds I J ⟨s, .idle⟩ :=
  ⟨hs, h.idle hs⟩

theorem failWith (h : MachineRules cfg rt I J R S) (stage : Stage) (e : StoreError) (hs : I s) :
    I (stage.failWith e s) := by
  cases stage with
  | idle => exact hs
  | accepted | rotated | written | committed => exact h.service.reply _ _ hs
  | batchStaged | batchRotated | batchOpen | batchClosed | batchSynced | batchCommitted =>
      exact h.service.reply _ _ hs

theorem takeAppend (h : MachineRules cfg rt I J R S) (t : Ticket) (req : AppendRequest)
    (hs : I s) : Holds I J (takeAppend rt t req s) := by
  have hstart := h.startAppend t req s hs
  unfold Store.takeAppend
  cases hres : Store.startAppend rt t req s with
  | error e s' =>
      rw [hres] at hstart
      exact h.settled (h.service.reply _ _ hstart)
  | ok r s' =>
      rw [hres] at hstart
      cases r with
      | inl receipt => exact h.settled (h.deliver _ _ _ hstart.1)
      | inr p => exact ⟨hstart.1, hstart.2 _ p.1 p.2 rfl⟩

theorem takeBatch (h : MachineRules cfg rt I J R S) (t : Ticket) (nowUs : Int)
    (items : List BatchAppendItem) (hs : I s) : Holds I J (takeBatch cfg rt t nowUs items s) := by
  have hstart := h.startBatch t nowUs items s hs
  unfold Store.takeBatch
  cases hres : Store.startBatch cfg rt t nowUs items s with
  | error e s' =>
      rw [hres] at hstart
      exact h.settled (h.service.reply _ _ hstart)
  | ok r s' =>
      rw [hres] at hstart
      cases r with
      | inl receipts => exact h.settled (h.deliver _ _ _ hstart.1)
      | inr plan => exact ⟨hstart.1, hstart.2 plan rfl⟩

theorem takeCommand (h : MachineRules cfg rt I J R S) (loop : WriterLoopPhase)
    (q : QueuedCommand) (hs : I s)
    (hsync : commandSyncs loop q.command = true → S q.faults.sync s) :
    Holds I J (takeCommand cfg rt loop q s) := by
  have hservice : q.command.appends = false →
      Holds I J ⟨runCommand cfg rt q.faults loop q.command s, .idle⟩ :=
    fun hcmd => h.settled (h.service.runCommand cfg rt q.faults loop hcmd hs hsync)
  unfold Store.takeCommand
  cases hcmd : q.command with
  | append req respond => exact h.takeAppend _ req hs
  | fenceAppend token req respond =>
      dsimp only
      split
      · exact h.takeAppend _ req hs
      · exact h.settled (h.service.reply _ _ hs)
  | appendBatch nowUs items respond => exact h.takeBatch _ nowUs items hs
  | fenceAppendBatch token nowUs items respond =>
      dsimp only
      split
      · exact h.takeBatch _ nowUs items hs
      · exact h.settled (h.service.reply _ _ hs)
  | beginVisibilityFence | commitVisibilityFence | cancelVisibilityFence | sync | shutdown =>
      rw [hcmd] at hservice
      exact hservice rfl

theorem advance (h : MachineRules cfg rt I J R S) {m : WriterMachine} (hm : Holds I J m)
    (hphase : R m.core m.stage) : Holds I J (advance cfg rt m) := by
  have hpost := h.phase hm.1 hm.2 hphase
  unfold Store.advance
  cases hres : Store.phase cfg rt m.stage m.core with
  | ok stage s =>
      rw [hres] at hpost
      exact hpost
  | error e s =>
      rw [hres] at hpost
      exact h.settled (h.failWith m.stage e hpost)

/-- Every step of the machine keeps what its parts keep. -/
theorem machineStep (h : MachineRules cfg rt I J R S) {m : WriterMachine} (step : MachineStep)
    (hm : Holds I J m) (hstep : StepAllowed S R m step) :
    Holds I J (machineStep cfg rt m step) := by
  cases step with
  | advance => exact h.advance hm hstep
  | start action =>
      obtain ⟨core, stage⟩ := m
      cases stage with
      | idle =>
          cases action with
          | command loop q => exact h.takeCommand loop q hm.1 hstep
          | periodicSync fails => exact h.settled (h.service.syncOutcome _ hm.1 hstep)
          | completeShutdown respond flt =>
              exact h.settled (h.service.completeShutdown respond flt hm.1 hstep)
      | _ => exact hm

end MachineRules

end Batpak.Store
