/-
Module: Batpak.Proofs.FenceCompletion
Purpose: What becomes of a visibility fence and of the replies that wait for it.
Trusted boundary: none
Main exports: Tracked, fence_settles
-/
import Batpak.Proofs.ShutdownClose
import Batpak.Proofs.VisibilityAgreement

namespace Batpak.Store

open Batpak.Util

/-! ### What can become of a fence -/

/-- Where a fence is later on: still open under its token with every reply waiting, committed
with every receipt sent, or cancelled with every append told so. -/
inductive FenceFate (fence : FenceLedger) (s : WriterCore) : Prop where
  | waiting (now : FenceLedger) (ledger : s.fenceLedger = some now)
      (identity : now.identity = fence.identity) (token : now.token = fence.token)
      (uncommitted : fence.identity ∉ s.committedFences)
      (responses : fence.responses <+: now.responses)
  | committed (mem : fence.identity ∈ s.committedFences)
      (answered : ∀ r ∈ fence.responses, r.okReply ∈ s.replies)
  | cancelled (closed : ∀ now ∈ s.fenceLedger, now.identity ≠ fence.identity)
      (uncommitted : fence.identity ∉ s.committedFences)
      (answered : ∀ r ∈ fence.responses, r.cancelledReply ∈ s.replies)

/-- Nothing written under the fence is visible, globally or on its lane. -/
def FenceHidden (identity : Nat) (s : WriterCore) : Prop :=
  ∀ e ∈ s.index.inserted, fenceOf e.provenance = some identity →
    s.index.gate.isVisible e.globalSequence = false ∧
      s.index.gate.isVisibleOnLane e.globalSequence e.dagLane = false

/-! ### What a step does to the fences -/

/-- The same fence is open, if any, and at most replies were added. -/
structure SameFences (s s' : WriterCore) : Prop where
  ledger : s'.fenceLedger.map (fun f => (f.identity, f.token, f.responses)) =
    s.fenceLedger.map fun f => (f.identity, f.token, f.responses)
  committed : s'.committedFences = s.committedFences
  count : s'.fenceCount = s.fenceCount
  replies : s.replies <:+ s'.replies

/-- What a step does to the open fence. -/
inductive FenceStep (s s' : WriterCore) : Prop where
  | same (same : SameFences s s')
  | pend (before now : FenceLedger) (response : PendingFenceResponse)
      (ledger : s.fenceLedger = some before) (ledger' : s'.fenceLedger = some now)
      (identity : now.identity = before.identity) (token : now.token = before.token)
      (responses : now.responses = before.responses ++ [response])
      (committed : s'.committedFences = s.committedFences) (count : s'.fenceCount = s.fenceCount)
      (replies : s.replies <:+ s'.replies)
  | begin (now : FenceLedger) (ledger : s.fenceLedger = none) (ledger' : s'.fenceLedger = some now)
      (identity : now.identity = s.fenceCount) (committed : s'.committedFences = s.committedFences)
      (count : s'.fenceCount = s.fenceCount + 1) (replies : s.replies <:+ s'.replies)
  | commit (fence : FenceLedger) (ledger : s.fenceLedger = some fence)
      (ledger' : s'.fenceLedger = none)
      (committed : s'.committedFences = fence.identity :: s.committedFences)
      (count : s'.fenceCount = s.fenceCount) (replies : s.replies <:+ s'.replies)
      (answered : ∀ r ∈ fence.responses, r.okReply ∈ s'.replies)
  | cancel (fence : FenceLedger) (ledger : s.fenceLedger = some fence)
      (ledger' : s'.fenceLedger = none) (committed : s'.committedFences = s.committedFences)
      (count : s'.fenceCount = s.fenceCount) (replies : s.replies <:+ s'.replies)
      (answered : ∀ r ∈ fence.responses, r.cancelledReply ∈ s'.replies)

namespace SameFences

variable {s s' s'' : WriterCore}

theorem refl (s : WriterCore) : SameFences s s :=
  ⟨rfl, rfl, rfl, List.suffix_rfl⟩

theorem trans (h : SameFences s s') (h' : SameFences s' s'') : SameFences s s'' :=
  ⟨h'.ledger.trans h.ledger, h'.committed.trans h.committed, h'.count.trans h.count,
    h.replies.trans h'.replies⟩

theorem of_sameWaiting (h : SameWaiting s s') : SameFences s s' :=
  ⟨h.ledger, h.committed, h.count, h.replies ▸ List.suffix_rfl⟩

theorem some_iff (h : SameFences s s') {now : FenceLedger} (hnow : s'.fenceLedger = some now) :
    ∃ before, s.fenceLedger = some before ∧ now.identity = before.identity ∧
      now.token = before.token ∧ now.responses = before.responses := by
  have hledger := h.ledger
  rw [hnow, Option.map_some] at hledger
  obtain ⟨before, hbefore, heq⟩ := Option.map_eq_some_iff.mp hledger.symm
  simp only [Prod.mk.injEq] at heq
  exact ⟨before, hbefore, heq.1.symm, heq.2.1.symm, heq.2.2.symm⟩

/-- The open fence of the earlier state. -/
theorem of_some (h : SameFences s s') {before : FenceLedger}
    (hbefore : s.fenceLedger = some before) :
    ∃ now, s'.fenceLedger = some now ∧ now.identity = before.identity ∧
      now.token = before.token ∧ now.responses = before.responses := by
  have hledger := h.ledger
  rw [hbefore, Option.map_some] at hledger
  obtain ⟨now, hnow, heq⟩ := Option.map_eq_some_iff.mp hledger
  simp only [Prod.mk.injEq] at heq
  exact ⟨now, hnow, heq.1, heq.2.1, heq.2.2⟩

end SameFences

/-- No step gives a fence another end than its own. -/
theorem FenceFate.step {fence : FenceLedger} {s s' : WriterCore} (h : FenceFate fence s)
    (hknown : fence.identity < s.fenceCount) (hstep : FenceStep s s') : FenceFate fence s' := by
  cases h with
  | waiting now ledger identity token uncommitted responses =>
      cases hstep with
      | same same =>
          obtain ⟨later, hlater, hidentity, htoken, hresponses⟩ := same.of_some ledger
          exact .waiting later hlater (hidentity.trans identity) (htoken.trans token)
            (same.committed ▸ uncommitted) (hresponses ▸ responses)
      | pend before later response ledger₁ ledger' identity₁ token₁ responses₁ committed _ _ =>
          rw [ledger] at ledger₁
          cases ledger₁
          refine .waiting later ledger' (identity₁.trans identity) (token₁.trans token)
            (committed ▸ uncommitted) ?_
          rw [responses₁]
          exact responses.trans (List.prefix_append _ _)
      | begin _ ledger₁ =>
          rw [ledger] at ledger₁
          cases ledger₁
      | commit before ledger₁ _ committed _ _ answered =>
          rw [ledger] at ledger₁
          cases ledger₁
          apply FenceFate.committed
          · rw [committed, identity]
            exact List.mem_cons_self
          · exact fun r hr => answered r (responses.subset hr)
      | cancel before ledger₁ ledger' committed _ _ answered =>
          rw [ledger] at ledger₁
          cases ledger₁
          apply FenceFate.cancelled
          · intro later hlater
            rw [ledger'] at hlater
            cases hlater
          · rw [committed]
            exact uncommitted
          · exact fun r hr => answered r (responses.subset hr)
  | committed mem answered =>
      have hkept : fence.identity ∈ s'.committedFences ∧ s.replies <:+ s'.replies := by
        cases hstep with
        | same same => exact ⟨same.committed ▸ mem, same.replies⟩
        | pend _ _ _ _ _ _ _ _ committed _ replies => exact ⟨committed ▸ mem, replies⟩
        | begin _ _ _ _ committed _ replies => exact ⟨committed ▸ mem, replies⟩
        | commit _ _ _ committed _ replies _ =>
            exact ⟨committed ▸ List.mem_cons_of_mem _ mem, replies⟩
        | cancel _ _ _ committed _ replies _ => exact ⟨committed ▸ mem, replies⟩
      exact .committed hkept.1 fun r hr => hkept.2.subset (answered r hr)
  | cancelled closed uncommitted answered =>
      cases hstep with
      | same same =>
          refine .cancelled ?_ (same.committed ▸ uncommitted)
            fun r hr => same.replies.subset (answered r hr)
          intro later hlater
          obtain ⟨before, hbefore, hidentity, -⟩ := same.some_iff hlater
          rw [hidentity]
          exact closed before hbefore
      | pend before later _ ledger ledger' identity _ _ committed _ replies =>
          refine .cancelled ?_ (committed ▸ uncommitted)
            fun r hr => replies.subset (answered r hr)
          intro other hother
          rw [ledger', Option.mem_some_iff] at hother
          rw [← hother, identity]
          exact closed before ledger
      | begin now _ ledger' identity committed _ replies =>
          refine .cancelled ?_ (committed ▸ uncommitted)
            fun r hr => replies.subset (answered r hr)
          intro other hother
          rw [ledger', Option.mem_some_iff] at hother
          rw [← hother, identity]
          exact Nat.ne_of_gt hknown
      | commit before ledger ledger' committed _ replies _ =>
          apply FenceFate.cancelled
          · intro other hother
            rw [ledger'] at hother
            cases hother
          · rw [committed, List.mem_cons, not_or]
            exact ⟨(closed before ledger).symm, uncommitted⟩
          · exact fun r hr => replies.subset (answered r hr)
      | cancel before ledger ledger' committed _ replies _ =>
          apply FenceFate.cancelled
          · intro other hother
            rw [ledger'] at hother
            cases hother
          · rw [committed]
            exact uncommitted
          · exact fun r hr => replies.subset (answered r hr)

/-! ### What the operations do -/

namespace FenceStep

variable {s s₁ s' : WriterCore}

theorem refl (s : WriterCore) : FenceStep s s :=
  .same (.refl s)

/-- A sync before a step. -/
theorem after (h : DiskOnly s s₁) (h' : FenceStep s₁ s') : FenceStep s s' := by
  cases h' with
  | same same => exact .same ((SameFences.of_sameWaiting (.of_diskOnly h)).trans same)
  | pend before now response ledger ledger' identity token responses committed count replies =>
      exact .pend before now response (h.fenceLedger ▸ ledger) ledger' identity token responses
        (committed.trans h.committedFences) (count.trans h.fenceCount) (h.replies ▸ replies)
  | begin now ledger ledger' identity committed count replies =>
      exact .begin now (h.fenceLedger ▸ ledger) ledger' (identity.trans h.fenceCount)
        (committed.trans h.committedFences) (h.fenceCount ▸ count) (h.replies ▸ replies)
  | commit fence ledger ledger' committed count replies answered =>
      exact .commit fence (h.fenceLedger ▸ ledger) ledger' (h.committedFences ▸ committed)
        (count.trans h.fenceCount) (h.replies ▸ replies) answered
  | cancel fence ledger ledger' committed count replies answered =>
      exact .cancel fence (h.fenceLedger ▸ ledger) ledger' (committed.trans h.committedFences)
        (count.trans h.fenceCount) (h.replies ▸ replies) answered

/-- After a step at most replies are added. -/
theorem andThen (h : FenceStep s s₁) (hledger : s'.fenceLedger = s₁.fenceLedger)
    (hcommitted : s'.committedFences = s₁.committedFences) (hcount : s'.fenceCount = s₁.fenceCount)
    (hmore : s₁.replies <:+ s'.replies) : FenceStep s s' := by
  cases h with
  | same same => exact .same (same.trans ⟨by rw [hledger], hcommitted, hcount, hmore⟩)
  | pend before now response ledger ledger' identity token responses committed count replies =>
      exact .pend before now response ledger (hledger.trans ledger') identity token responses
        (hcommitted.trans committed) (hcount.trans count) (replies.trans hmore)
  | begin now ledger ledger' identity committed count replies =>
      exact .begin now ledger (hledger.trans ledger') identity (hcommitted.trans committed)
        (hcount.trans count) (replies.trans hmore)
  | commit fence ledger ledger' committed count replies answered =>
      exact .commit fence ledger (hledger.trans ledger') (hcommitted.trans committed)
        (hcount.trans count) (replies.trans hmore) fun r hr => hmore.subset (answered r hr)
  | cancel fence ledger ledger' committed count replies answered =>
      exact .cancel fence ledger (hledger.trans ledger') (hcommitted.trans committed)
        (hcount.trans count) (replies.trans hmore) fun r hr => hmore.subset (answered r hr)

theorem reply (respond : Nat) (reply : Reply) (h : FenceStep s s') :
    FenceStep s (sendReply respond reply s') :=
  h.andThen rfl rfl rfl (List.suffix_cons _ _)

theorem diskOnly (h : FenceStep s s₁) (h' : DiskOnly s₁ s') : FenceStep s s' :=
  h.andThen h'.fenceLedger h'.committedFences h'.fenceCount (h'.replies ▸ List.suffix_rfl)

theorem respondWith {α : Type} (respond : Nat) (mk : Except StoreError α → Reply) (m : WriterM α)
    (h : FenceStep s (finalState (m s))) : FenceStep s (respondWith respond mk m s) := by
  unfold Store.respondWith
  cases hm : m s with
  | ok a s' =>
      rw [hm] at h
      exact h.reply respond _
  | error e s' =>
      rw [hm] at h
      exact h.reply respond _

end FenceStep

/-- An append under a fence waits for it, or is answered at once. -/
theorem underFence_fenceStep {α : Type} (token respond : Nat) (mk : Except StoreError α → Reply)
    (pending : α → PendingFenceResponse) (m : WriterM α) {s : WriterCore}
    (h : SameFences s (finalState (m s))) :
    FenceStep s (underFence token respond mk pending m s).2 := by
  unfold underFence
  split
  · rename_i htoken
    obtain ⟨before, hbefore, -⟩ := Option.map_eq_some_iff.mp htoken
    cases hm : m s with
    | error e s' =>
        rw [hm] at h
        exact (FenceStep.same h).reply respond _
    | ok a s' =>
        rw [hm] at h
        have h : SameFences s s' := h
        obtain ⟨now, hnow, hidentity, htoken, hresponses⟩ := h.of_some hbefore
        dsimp only
        refine .pend before { now with responses := now.responses ++ [pending a] } (pending a)
          hbefore ?_ hidentity htoken ?_ h.committed h.count h.replies
        · rw [hnow]
          rfl
        · dsimp only
          rw [hresponses]
  · exact (FenceStep.refl s).reply respond _

theorem beginVisibilityFence_fenceStep (token : Nat) (s : WriterCore) :
    FenceStep s (finalState (beginVisibilityFence token s)) :=
  beginVisibilityFence_cases (.refl s)
    fun hnone _ _ => .begin _ hnone rfl rfl rfl rfl List.suffix_rfl

/-- A commit that the gate accepts. -/
theorem commitVisibilityFence_fenceStep (token : Nat) (s : WriterCore)
    (hgate : ∀ fence ∈ s.fenceLedger, fence.token = token →
      ∃ gate, s.index.gate.finishFenceOnLanes token fence.publishUpTo
        (laneBounds fence.notifications) = .ok gate) :
    FenceStep s (finalState (commitVisibilityFence token s)) := by
  refine commitVisibilityFence_cases (.refl s) ?_ ?_
  · intro fence e hledger htoken hrefused
    obtain ⟨gate, hok⟩ := hgate fence hledger htoken
    rw [hok] at hrefused
    cases hrefused
  · intro fence gate hledger _ _
    refine .commit fence hledger rfl rfl rfl (List.suffix_append _ _) ?_
    intro r hr
    exact List.mem_append_left _ (List.mem_reverse.mpr (List.mem_map_of_mem hr))

/-- Closing the ledger and telling those who waited. -/
theorem dropped_fenceStep {s : WriterCore} {fence : FenceLedger}
    (hledger : s.fenceLedger = some fence) (gate : SequenceGate)
    (ranges : Option CancelledVisibilityRanges) :
    FenceStep s (s.fenceDropped gate ranges (fence.responses.map (·.cancelledReply)).reverse) := by
  refine .cancel fence hledger rfl rfl rfl (List.suffix_append _ _) ?_
  intro r hr
  exact List.mem_append_left _ (List.mem_reverse.mpr (List.mem_map_of_mem hr))

/-- A cancellation that can persist its ranges. -/
theorem cancelVisibilityFence_fenceStep (flt : Faults) (token : Nat) (s : WriterCore)
    (hs : Tokens s) (hpersist : flt.persistRanges = false) :
    FenceStep s (finalState (cancelVisibilityFence flt token s)) := by
  refine cancelVisibilityFence_cases (.refl s) ?_ fun fence hledger _ =>
    dropped_fenceStep hledger _ _
  intro fence hledger htoken hfails
  rcases hfails with hfails | hother
  · rw [hpersist] at hfails
    cases hfails
  · exact absurd ((hs fence hledger).1.trans htoken) hother

/-- The cancellation at a shutdown answers even when the ranges cannot be persisted. -/
theorem autoCancel_fenceStep (flt : Faults) (s : WriterCore) :
    FenceStep s (autoCancelFenceOnShutdown flt s) :=
  autoCancelFenceOnShutdown_cases (fun _ => .refl s) fun _ hledger => dropped_fenceStep hledger _ _

/-! ### Whole steps -/

/-- No unfenced append gets to the writer while a fence holds events back, and a cancellation
can persist its ranges. -/
def Completes (s : WriterCore) : WriterStep → Prop
  | .command _ q => (q.command.unfenced = true → HoldsNothing s) ∧
      match q.command with
      | .cancelVisibilityFence _ _ => q.faults.persistRanges = false
      | _ => True
  | .periodicSync _ => True
  | .completeShutdown .. => True

/-- The channels a step answers or puts to wait. The main loop answers a shutdown when it is
complete. -/
def WriterStep.channels : WriterStep → List Nat
  | .command .main ⟨.shutdown _, _⟩ => []
  | .command _ q => [q.command.respond]
  | .periodicSync _ => []
  | .completeShutdown respond _ => [respond]

section Steps

variable {s : WriterCore}

/-- The open fence is the one of the gate. -/
theorem Gated.tokens (h : Gated s.fenceView) : Tokens s := by
  intro fence hfence
  obtain ⟨floor, hopen⟩ := h.fence fence.view (fenceView_ledger hfence)
  exact ⟨hopen.token, hopen.active⟩

theorem Gated.survives (h : Gated s.fenceView) {phase : WriterLoopPhase} {q : QueuedCommand}
    (hok : Completes s (.command phase q)) : Survives phase q s := by
  obtain ⟨cmd, flt⟩ := q
  unfold Survives
  cases cmd with
  | commitVisibilityFence token respond =>
      intro _ fence hfence htoken
      subst htoken
      exact ⟨_, h.finishes hfence⟩
  | cancelVisibilityFence token respond => exact fun _ _ _ => hok.2
  | append req respond => trivial
  | fenceAppend token req respond => trivial
  | appendBatch nowUs items respond => trivial
  | fenceAppendBatch token nowUs items respond => trivial
  | beginVisibilityFence token respond => trivial
  | sync respond => trivial
  | shutdown respond => trivial

/-- A command that waits for the sync barrier. -/
theorem settle_fenceStep {flt : Faults} {result : CommandResult}
    (hsend : ∀ syncResult, FenceStep (syncOutcome flt s).2
      (result.deferredReply.send syncResult (syncOutcome flt s).2)) :
    FenceStep s (settle flt result s) := by
  unfold settle
  split
  · exact .after (syncOutcome_diskOnly flt s) (hsend _)
  · exact .refl s

theorem deferredCommit_fenceStep {flt : Faults} {result : CommandResult} {token respond : Nat}
    (hgate : ∀ fence ∈ s.fenceLedger, fence.token = token →
      ∃ gate, s.index.gate.finishFenceOnLanes token fence.publishUpTo
        (laneBounds fence.notifications) = .ok gate)
    (hreply : result.deferredReply = .commitVisibilityFence token respond) :
    FenceStep s (settle flt result s) := by
  apply settle_fenceStep
  intro syncResult
  rw [hreply]
  cases syncResult with
  | error e => exact (FenceStep.refl _).reply respond _
  | ok u =>
      apply FenceStep.respondWith
      apply commitVisibilityFence_fenceStep
      rw [(syncOutcome_diskOnly flt s).index, (syncOutcome_diskOnly flt s).fenceLedger]
      exact hgate

/-- What one command does to the open fence. -/
theorem runCommand_fenceStep (cfg : StoreConfig) (rt : Runtime) {phase : WriterLoopPhase}
    {q : QueuedCommand} (h : Gated s.fenceView) (hok : Completes s (.command phase q)) :
    FenceStep s (runCommand cfg rt q.faults phase q.command s) := by
  obtain ⟨cmd, flt⟩ := q
  cases cmd with
  | append req respond => exact (FenceStep.same
      (.of_sameWaiting (handleAppend_sameWaiting ..))).respondWith respond _ _
  | appendBatch nowUs items respond =>
      exact (FenceStep.same
        (.of_sameWaiting (handleAppendBatch_sameWaiting ..))).respondWith respond _ _
  | fenceAppend token req respond =>
      exact underFence_fenceStep _ _ _ _ _ (.of_sameWaiting (handleAppend_sameWaiting ..))
  | fenceAppendBatch token nowUs items respond =>
      exact underFence_fenceStep _ _ _ _ _ (.of_sameWaiting (handleAppendBatch_sameWaiting ..))
  | cancelVisibilityFence token respond =>
      exact (cancelVisibilityFence_fenceStep flt token s h.tokens hok.2).respondWith respond _ _
  | beginVisibilityFence token respond =>
      cases phase with
      | main => exact (beginVisibilityFence_fenceStep token s).respondWith respond _ _
      | shutdownDrain => exact (beginVisibilityFence_fenceStep token s).respondWith respond _ _
      | groupCommitDrain =>
          apply settle_fenceStep
          intro syncResult
          cases syncResult with
          | error e => exact (FenceStep.refl _).reply respond _
          | ok u => exact (beginVisibilityFence_fenceStep token _).respondWith respond _ _
  | commitVisibilityFence token respond =>
      have hgate : ∀ fence ∈ s.fenceLedger, fence.token = token →
          ∃ gate, s.index.gate.finishFenceOnLanes token fence.publishUpTo
            (laneBounds fence.notifications) = .ok gate := by
        rintro fence hfence rfl
        exact ⟨_, h.finishes hfence⟩
      cases phase with
      | main => exact deferredCommit_fenceStep hgate rfl
      | groupCommitDrain => exact deferredCommit_fenceStep hgate rfl
      | shutdownDrain =>
          exact (commitVisibilityFence_fenceStep token s hgate).respondWith respond _ _
  | sync respond =>
      cases phase with
      | main => exact settle_fenceStep fun _ => (FenceStep.refl _).reply respond _
      | groupCommitDrain => exact settle_fenceStep fun _ => (FenceStep.refl _).reply respond _
      | shutdownDrain =>
          have hsync := Post.finalState (@syncActiveSegment_diskOnly s flt s (DiskOnly.refl s))
          exact (FenceStep.same (.of_sameWaiting (.of_diskOnly hsync))).respondWith respond _ _
  | shutdown respond =>
      cases phase with
      | main => exact .refl s
      | shutdownDrain => exact (FenceStep.refl s).reply respond _
      | groupCommitDrain => exact settle_fenceStep fun _ => (FenceStep.refl _).reply respond _

theorem completeShutdown_fenceStep (respond : Nat) (flt : Faults) (s : WriterCore) :
    FenceStep s (completeShutdown respond flt s) := by
  unfold completeShutdown finishShutdown
  dsimp only
  apply FenceStep.reply
  have hcancelled := autoCancel_fenceStep flt s
  refine FenceStep.diskOnly ?_ (syncOutcome_diskOnly flt _)
  split
  · exact hcancelled
  · exact hcancelled.andThen rfl rfl rfl List.suffix_rfl

theorem writerStep_fenceStep (cfg : StoreConfig) (rt : Runtime) {step : WriterStep}
    (h : Gated s.fenceView) (hok : Completes s step) : FenceStep s (writerStep cfg rt s step) := by
  cases step with
  | command phase q => exact runCommand_fenceStep cfg rt h hok
  | periodicSync fails => exact .after (syncOutcome_diskOnly _ s) (.refl _)
  | completeShutdown respond flt => exact completeShutdown_fenceStep respond flt s

end Steps

/-! ### What stays hidden -/

/-- The events of a fence that is no longer open and did not commit are cancelled. -/
structure Tracked (identity : Nat) (v : FenceView) : Prop where
  gated : Gated v
  known : identity < v.count
  dropped : identity ∉ v.committed → (∀ L, v.ledger = some L → L.identity ≠ identity) →
    ∀ e ∈ v.entries, fenceOf e.provenance = some identity → Cancelled v.gate e

theorem trackedMoves (identity : Nat) : FenceMoves (Tracked identity) where
  gated h := h.gated
  reserve n h := ⟨h.gated.reserve n, h.known, h.dropped⟩
  callerBegin {v} h := by
    refine ⟨h.gated.callerBegin, h.known, ?_⟩
    unfold FenceView.callerBegin SequenceGate.beginFence
    dsimp only
    split
    · exact h.dropped
    · exact h.dropped
  openFence {v} token h hidle htoken hactive := by
    refine ⟨h.gated.openFence hidle htoken hactive, Nat.lt_succ_of_lt h.known, ?_⟩
    intro huncommitted _
    apply h.dropped huncommitted
    intro L hL
    rw [hidle] at hL
    cases hL
  release {v new n notifications} h hempty hnew := by
    refine ⟨h.gated.release hempty hnew, h.known, ?_⟩
    intro huncommitted hclosed e he hfence
    rcases List.mem_append.mp he with he | he
    · rw [hnew.fences e he] at hfence
      cases hfence
    · exact h.dropped huncommitted hclosed e he hfence
  stage {v new n notifications L} h hL hnew := by
    refine ⟨h.gated.stage hL hnew, h.known, ?_⟩
    intro huncommitted hclosed e he hfence
    have hother := hclosed _ rfl
    change L.identity ≠ identity at hother
    rcases List.mem_append.mp he with he | he
    · rw [hnew.fences e he, Option.some.injEq] at hfence
      exact absurd hfence hother
    · apply h.dropped huncommitted _ e he hfence
      intro L' hL'
      rw [hL] at hL'
      cases hL'
      exact hother
  commit {v L} h hL := by
    refine ⟨h.gated.commit hL, h.known, ?_⟩
    intro huncommitted _ e he hfence
    obtain ⟨hother, huncommitted⟩ := not_or.mp (mt List.mem_cons.mpr huncommitted)
    rw [commitFence_cancelled]
    apply h.dropped huncommitted _ e he hfence
    intro L' hL'
    rw [hL] at hL'
    cases hL'
    exact Ne.symm hother
  cancel {v L points} h hL hpoints := by
    refine ⟨h.gated.cancel hL hpoints, h.known, ?_⟩
    intro huncommitted _ e he hfence
    apply (rangeContains_cancelFence points _).mpr
    by_cases hsame : L.identity = identity
    · -- the hull of the fence is cancelled
      obtain ⟨floor, hopen⟩ := h.gated.fence L hL
      have hheld := hopen.held e he (hsame ▸ hfence)
      obtain ⟨a, ha, hle⟩ := hheld.hullStart
      exact .inr ⟨a, ha, hle, hheld.hullEnd⟩
    · left
      apply h.dropped huncommitted _ e he hfence
      intro L' hL'
      rw [hL] at hL'
      cases hL'
      exact hsame
  persist h := ⟨h.gated.persist, h.known, h.dropped⟩

/-- What a fence that did not commit has written is not visible. -/
theorem Tracked.hidden {identity : Nat} {s : WriterCore} (h : Tracked identity s.fenceView)
    (huncommitted : identity ∉ s.committedFences) : FenceHidden identity s := by
  intro e he hfence
  by_cases hopen : ∃ L, s.fenceView.ledger = some L ∧ L.identity = identity
  · obtain ⟨L, hL, hidentity⟩ := hopen
    exact h.gated.not_shown_of_pending he ⟨L, hL, hidentity ▸ hfence⟩
  · apply not_shown_of_cancelled
    apply h.dropped huncommitted _ e he hfence
    exact fun L hL hidentity => hopen ⟨L, hL, hidentity⟩

/-! ### Runs -/

/-- Commit and cancel work on the fence by its token. A commit whose sync fails leaves
everything as it is, and after a cancellation, whether it succeeds or not, nothing written
under the fence is visible. -/
structure Retryable (cfg : StoreConfig) (rt : Runtime) (fence : FenceLedger) (s : WriterCore) :
    Prop where
  commits : ∀ flt phase respond, phase = .shutdownDrain ∨ flt.sync = false →
    fence.identity ∈ (runCommand cfg rt flt phase
      (.commitVisibilityFence fence.token respond) s).committedFences
  keeps : ∀ flt phase respond, phase ≠ .shutdownDrain → flt.sync = true →
    (runCommand cfg rt flt phase (.commitVisibilityFence fence.token respond) s).fenceLedger =
        some fence ∧
      (runCommand cfg rt flt phase (.commitVisibilityFence fence.token respond) s).index = s.index ∧
      ∃ e, (runCommand cfg rt flt phase (.commitVisibilityFence fence.token respond) s).replies =
        (respond, .unit (.error e)) :: s.replies
  cancels : ∀ flt phase respond, flt.persistRanges = false →
    (runCommand cfg rt flt phase (.cancelVisibilityFence fence.token respond) s).fenceLedger =
        none ∧
      ∀ r ∈ fence.responses, r.cancelledReply ∈
        (runCommand cfg rt flt phase (.cancelVisibilityFence fence.token respond) s).replies
  hides : ∀ flt phase respond, FenceHidden fence.identity
    (runCommand cfg rt flt phase (.cancelVisibilityFence fence.token respond) s)

section Attempts

variable {s : WriterCore} {fence : FenceLedger}

theorem commitVisibilityFence_eq (hfence : s.fenceLedger = some fence) {gate : SequenceGate}
    (hgate : s.index.gate.finishFenceOnLanes fence.token fence.publishUpTo
      (laneBounds fence.notifications) = .ok gate) :
    ∃ s', commitVisibilityFence fence.token s = .ok () s' ∧
      s'.committedFences = fence.identity :: s.committedFences := by
  unfold commitVisibilityFence
  rw [hfence]
  dsimp only
  rw [if_neg (not_not.mpr rfl), hgate]
  dsimp only
  rw [foldl_completeOk]
  exact ⟨_, rfl, rfl⟩

theorem committed_of_respondWith (hfence : s.fenceLedger = some fence) (respond : Nat)
    (hgate : ∃ gate, s.index.gate.finishFenceOnLanes fence.token fence.publishUpTo
      (laneBounds fence.notifications) = .ok gate) :
    fence.identity ∈ (respondWith respond .unit (commitVisibilityFence fence.token)
      s).committedFences := by
  obtain ⟨gate, hgate⟩ := hgate
  obtain ⟨s', hcommit, hcommitted⟩ := commitVisibilityFence_eq hfence hgate
  unfold respondWith
  rw [hcommit]
  dsimp only [sendReply]
  rw [hcommitted]
  exact List.mem_cons_self

theorem respondWith_committed {α : Type} (respond : Nat) (mk : Except StoreError α → Reply)
    (m : WriterM α) (s : WriterCore) :
    (respondWith respond mk m s).committedFences = (finalState (m s)).committedFences := by
  unfold respondWith
  cases m s with
  | ok a s' => rfl
  | error e s' => rfl

theorem syncOutcome_of_fault {flt : Faults} (h : flt.sync = true) (s : WriterCore) :
    ∃ e, (syncOutcome flt s).1 = .error e := by
  unfold syncOutcome syncActiveSegment
  rw [h]
  exact ⟨_, rfl⟩

theorem syncOutcome_of_no_fault {flt : Faults} (h : flt.sync = false) (s : WriterCore) :
    (syncOutcome flt s).1 = .ok () := by
  unfold syncOutcome syncActiveSegment
  rw [h]
  rfl

theorem runCommand_cancel (cfg : StoreConfig) (rt : Runtime) (flt : Faults)
    (phase : WriterLoopPhase) (token respond : Nat) (s : WriterCore) :
    runCommand cfg rt flt phase (.cancelVisibilityFence token respond) s =
      respondWith respond .unit (cancelVisibilityFence flt token) s := by
  cases phase with
  | main => rfl
  | groupCommitDrain => rfl
  | shutdownDrain => rfl

theorem cancelVisibilityFence_committed (flt : Faults) (token : Nat) (s : WriterCore) :
    (finalState (cancelVisibilityFence flt token s)).committedFences = s.committedFences :=
  cancelVisibilityFence_cases rfl (fun _ _ _ _ => rfl) fun _ _ _ => rfl

/-- A fence the gate knows can be completed. -/
theorem Tracked.retryable (cfg : StoreConfig) (rt : Runtime)
    (htracked : Tracked fence.identity s.fenceView) (hfence : s.fenceLedger = some fence) :
    Retryable cfg rt fence s := by
  have h := htracked.gated
  have hgate : ∃ gate, s.index.gate.finishFenceOnLanes fence.token fence.publishUpTo
      (laneBounds fence.notifications) = .ok gate := ⟨_, h.finishes hfence⟩
  constructor
  · intro flt phase respond hreached
    have hdeferred : ∀ result : CommandResult, result.mustSyncBeforeContinue = true →
        result.deferredReply = .commitVisibilityFence fence.token respond →
        flt.sync = false → fence.identity ∈ (settle flt result s).committedFences := by
      intro result hmust hreply hsync
      have hdisk := syncOutcome_diskOnly flt s
      unfold settle
      rw [if_pos hmust, hreply]
      dsimp only [DeferredReply.send]
      rw [syncOutcome_of_no_fault hsync]
      apply committed_of_respondWith (hdisk.fenceLedger.trans hfence)
      rw [hdisk.index]
      exact hgate
    cases phase with
    | main => exact hdeferred _ rfl rfl (hreached.resolve_left nofun)
    | groupCommitDrain => exact hdeferred _ rfl rfl (hreached.resolve_left nofun)
    | shutdownDrain => exact committed_of_respondWith hfence respond hgate
  · intro flt phase respond hphase hsync
    have hdeferred : ∀ result : CommandResult, result.mustSyncBeforeContinue = true →
        result.deferredReply = .commitVisibilityFence fence.token respond →
        (settle flt result s).fenceLedger = some fence ∧ (settle flt result s).index = s.index ∧
          ∃ e, (settle flt result s).replies = (respond, .unit (.error e)) :: s.replies := by
      intro result hmust hreply
      have hdisk := syncOutcome_diskOnly flt s
      obtain ⟨e, he⟩ := syncOutcome_of_fault hsync s
      unfold settle
      rw [if_pos hmust, hreply]
      dsimp only [DeferredReply.send]
      rw [he]
      dsimp only [sendReply]
      rw [hdisk.fenceLedger, hdisk.index, hdisk.replies]
      exact ⟨hfence, rfl, e, rfl⟩
    cases phase with
    | main => exact hdeferred _ rfl rfl
    | groupCommitDrain => exact hdeferred _ rfl rfl
    | shutdownDrain => exact absurd rfl hphase
  · intro flt phase respond hpersist
    have hdone : ∃ gate, cancelVisibilityFence flt fence.token s =
        .ok () (s.fenceDropped gate (some gate.cancelledRangesSnapshot)
          (fence.responses.map (·.cancelledReply)).reverse) := by
      have hactive : s.index.gate.activeFence = fence.token := (h.tokens fence hfence).1
      unfold cancelVisibilityFence StoreIndex.cancelVisibilityFence SequenceGate.cancelFence
        persistCancelledVisibilityRanges
      rw [hfence]
      dsimp only
      rw [if_neg (not_not.mpr rfl), if_pos hactive, hpersist]
      simp only [Bool.false_eq_true, if_false]
      rw [foldl_completeCancelled]
      exact ⟨_, rfl⟩
    obtain ⟨gate, hdone⟩ := hdone
    rw [runCommand_cancel]
    unfold respondWith
    rw [hdone]
    refine ⟨rfl, ?_⟩
    intro r hr
    apply List.mem_cons_of_mem
    exact List.mem_append_left _ (List.mem_reverse.mpr (List.mem_map_of_mem hr))
  · intro flt phase respond
    obtain ⟨floor, hopen⟩ := h.fence fence.view (fenceView_ledger hfence)
    have hkept := ((trackedMoves fence.identity).writerRules cfg rt).runCommand flt phase
      (.cancelVisibilityFence fence.token respond) htracked (fun hunfenced => nomatch hunfenced)
    apply Tracked.hidden hkept
    rw [runCommand_cancel, respondWith_committed, cancelVisibilityFence_committed]
    exact hopen.uncommitted

end Attempts

/-! ### Everyone is answered once -/

section Answers

variable {s : WriterCore}

theorem completeShutdown_answers (respond : Nat) (flt : Faults) (s : WriterCore) :
    AnswersOne respond s (completeShutdown respond flt s) := by
  unfold completeShutdown finishShutdown
  dsimp only
  have hcancelled := autoCancel_settles flt s
  refine Settles.answers ?_ (sendReply_answers respond _ _)
  refine Settles.trans ?_ (syncOutcome_settles flt _)
  split
  · exact hcancelled
  · exact hcancelled.trans (SameWaiting.settles ⟨rfl, rfl, rfl, rfl, rfl⟩)

/-- A step answers its channels, or puts them to wait, and nobody who waited is forgotten. -/
theorem writerStep_answers (cfg : StoreConfig) (rt : Runtime) {step : WriterStep}
    (h : Gated s.fenceView) (hok : Completes s step) :
    (answering (writerStep cfg rt s step)).Perm (step.channels ++ answering s) := by
  cases step with
  | periodicSync fails => exact (syncOutcome_settles _ s).1
  | completeShutdown respond flt => exact (completeShutdown_answers respond flt s).1
  | command phase q =>
      have hanswers : (phase = .main → ∀ respond, q.command ≠ .shutdown respond) →
          (answering (writerStep cfg rt s (.command phase q))).Perm
            (q.command.respond :: answering s) :=
        fun hphase => (runCommand_answers cfg rt h.tokens (h.survives hok) hphase).1
      cases phase with
      | groupCommitDrain => exact hanswers nofun
      | shutdownDrain => exact hanswers nofun
      | main =>
          obtain ⟨cmd, flt⟩ := q
          cases cmd with
          | shutdown respond => exact .refl _
          | append req respond => exact hanswers nofun
          | fenceAppend token req respond => exact hanswers nofun
          | appendBatch nowUs items respond => exact hanswers nofun
          | fenceAppendBatch token nowUs items respond => exact hanswers nofun
          | beginVisibilityFence token respond => exact hanswers nofun
          | commitVisibilityFence token respond => exact hanswers nofun
          | cancelVisibilityFence token respond => exact hanswers nofun
          | sync respond => exact hanswers nofun

end Answers

/-! ### The fences of a life -/

section Runs

variable {s : WriterCore} {fence : FenceLedger}

theorem Tracked.step {identity : Nat} (cfg : StoreConfig) (rt : Runtime) {step : WriterStep}
    (h : Tracked identity s.fenceView) (hok : Completes s step) :
    Tracked identity (writerStep cfg rt s step).fenceView := by
  apply ((trackedMoves identity).writerRules cfg rt).writerStep step h
  cases step with
  | command phase q => exact hok.1
  | periodicSync fails => exact nofun
  | completeShutdown respond flt => exact nofun

theorem fate_run (cfg : StoreConfig) (rt : Runtime) (steps : List WriterStep)
    (htracked : Tracked fence.identity s.fenceView) (hfate : FenceFate fence s)
    (h : Guarded (writerStep cfg rt) Completes s steps) :
    Tracked fence.identity (run (writerStep cfg rt) s steps).fenceView ∧
      FenceFate fence (run (writerStep cfg rt) s steps) ∧
      (answering (run (writerStep cfg rt) s steps)).Perm
        (steps.flatMap WriterStep.channels ++ answering s) := by
  induction steps generalizing s with
  | nil => exact ⟨htracked, hfate, .refl _⟩
  | cons step steps ih =>
      have hstep := writerStep_fenceStep cfg rt htracked.gated h.1
      obtain ⟨htracked', hfate', hanswered⟩ :=
        ih (htracked.step cfg rt h.1) (hfate.step htracked.known hstep) h.2
      refine ⟨htracked', hfate', ?_⟩
      rw [run_cons, List.flatMap_cons, List.append_assoc]
      calc
        (answering (run (writerStep cfg rt) (writerStep cfg rt s step) steps)).Perm
            (steps.flatMap WriterStep.channels ++ answering (writerStep cfg rt s step)) := hanswered
        List.Perm _ (steps.flatMap WriterStep.channels ++ (step.channels ++ answering s)) :=
          (writerStep_answers cfg rt htracked.gated h.1).append_left _
        List.Perm _ (step.channels ++ (steps.flatMap WriterStep.channels ++ answering s)) := by
          rw [← List.append_assoc, ← List.append_assoc]
          exact List.perm_append_comm.append_right _

/-- In every life in which unfenced appends run while nothing is held back and compactions
while no fence is open, and for every fence that is open at some time: while cancellations
can persist their ranges, the fence waits with everything under it hidden and all replies
pending, and can be committed and cancelled by its token, until it commits and everyone gets a
receipt, or is cancelled and everyone is told so. Each channel is answered or waits once for
each time it was handed in. -/
theorem fence_settles (cfg : LifecycleConfig) (rt : Runtime) (life : List LifecycleStep)
    (hlife : Guarded (lifecycleStep cfg rt) fenceGuards.Allows .blank life) {core : WriterCore}
    (hcore : (run (lifecycleStep cfg rt) .blank life).core? = some core)
    (hfence : core.fenceLedger = some fence) (steps : List WriterStep)
    (hsteps : Guarded (writerStep cfg.store rt) Completes core steps) :
    FenceFate fence (run (writerStep cfg.store rt) core steps) ∧
      (fence.identity ∉ (run (writerStep cfg.store rt) core steps).committedFences →
        FenceHidden fence.identity (run (writerStep cfg.store rt) core steps)) ∧
      (∀ now, (run (writerStep cfg.store rt) core steps).fenceLedger = some now →
        now.identity = fence.identity →
          Retryable cfg.store rt now (run (writerStep cfg.store rt) core steps)) ∧
      (answering (run (writerStep cfg.store rt) core steps)).Perm
        (steps.flatMap WriterStep.channels ++ answering core) := by
  have hfinal := run_invariant (gatedLife cfg rt).lifecycleStep life .blank fencedDisk_blank hlife
  have hgated : Gated core.fenceView := by
    generalize run (lifecycleStep cfg rt) .blank life = st at hfinal hcore
    cases st with
    | opened core' side =>
        cases hcore
        exact hfinal.1.view
    | closed segments ranges side fences => cases hcore
  have hL := fenceView_ledger hfence
  obtain ⟨floor, hopen⟩ := hgated.fence fence.view hL
  have htracked : Tracked fence.identity core.fenceView :=
    ⟨hgated, hopen.identity, fun _ hclosed => absurd rfl (hclosed fence.view hL)⟩
  have hfate : FenceFate fence core :=
    .waiting fence hfence rfl rfl hopen.uncommitted List.prefix_rfl
  obtain ⟨htracked', hfate', hanswered⟩ := fate_run cfg.store rt steps htracked hfate hsteps
  refine ⟨hfate', htracked'.hidden, ?_, hanswered⟩
  intro now hnow hidentity
  rw [← hidentity] at htracked'
  exact htracked'.retryable cfg.store rt hnow

end Runs

/-! ### Completions that fail -/

instance decidableCompletes (s : WriterCore) : (step : WriterStep) → Decidable (Completes s step)
  | .command _ ⟨.cancelVisibilityFence _ _, flt⟩ =>
      inferInstanceAs (Decidable ((_ = true → HoldsNothing s) ∧ flt.persistRanges = false))
  | .command _ ⟨.append .., _⟩ | .command _ ⟨.appendBatch .., _⟩ | .command _ ⟨.fenceAppend .., _⟩
  | .command _ ⟨.fenceAppendBatch .., _⟩ | .command _ ⟨.beginVisibilityFence .., _⟩
  | .command _ ⟨.commitVisibilityFence .., _⟩ | .command _ ⟨.sync .., _⟩
  | .command _ ⟨.shutdown .., _⟩ => inferInstanceAs (Decidable ((_ = true → HoldsNothing s) ∧ True))
  | .periodicSync _ | .completeShutdown .. => inferInstanceAs (Decidable True)

deriving instance DecidableEq for Reply

instance (fence : FenceLedger) (s : WriterCore) : Decidable (FenceFate fence s) :=
  decidable_of_iff
    ((∃ now ∈ s.fenceLedger, now.identity = fence.identity ∧ now.token = fence.token ∧
        fence.identity ∉ s.committedFences ∧ fence.responses <+: now.responses) ∨
      (fence.identity ∈ s.committedFences ∧ ∀ r ∈ fence.responses, r.okReply ∈ s.replies) ∨
      ((∀ now ∈ s.fenceLedger, now.identity ≠ fence.identity) ∧
        fence.identity ∉ s.committedFences ∧ ∀ r ∈ fence.responses, r.cancelledReply ∈ s.replies))
    (by
      constructor
      · rintro (⟨now, h₁, h₂, h₃, h₄, h₅⟩ | ⟨h₁, h₂⟩ | ⟨h₁, h₂, h₃⟩)
        · exact .waiting now h₁ h₂ h₃ h₄ h₅
        · exact .committed h₁ h₂
        · exact .cancelled h₁ h₂ h₃
      · intro h
        cases h with
        | waiting now h₁ h₂ h₃ h₄ h₅ => exact .inl ⟨now, h₁, h₂, h₃, h₄, h₅⟩
        | committed h₁ h₂ => exact .inr (.inl ⟨h₁, h₂⟩)
        | cancelled h₁ h₂ h₃ => exact .inr (.inr ⟨h₁, h₂, h₃⟩))

/-- A commit whose sync fails, and another one. -/
def retriedCommit : List WriterStep :=
  [.command .main ⟨.commitVisibilityFence 1 2, { Faults.none with sync := true }⟩,
    .command .main ⟨.commitVisibilityFence 1 3, .none⟩]

theorem retried_commit_settles :
    ∃ core, (run (lifecycleStep .small .unsigned) .blank openFencedRun).core? = some core ∧
      ∃ fence, core.fenceLedger = some fence ∧ fence.responses.length = 1 ∧
        FenceFate fence (run (writerStep .small .unsigned) core retriedCommit) := by
  have hlife : Guarded (lifecycleStep .small .unsigned) fenceGuards.Allows .blank
      openFencedRun := by
    decide +kernel
  have hready : ∃ core ∈ (run (lifecycleStep .small .unsigned) .blank openFencedRun).core?,
      ∃ fence ∈ core.fenceLedger, fence.responses.length = 1 ∧
        Guarded (writerStep .small .unsigned) Completes core retriedCommit := by
    decide +kernel
  obtain ⟨core, hcore, fence, hfence, hone, hsteps⟩ := hready
  exact ⟨core, hcore, fence, hfence, hone,
    (fence_settles .small .unsigned _ hlife hcore hfence _ hsteps).1⟩

/-- A cancellation that cannot persist its ranges, and another one. -/
def retriedCancel : List WriterStep :=
  [.command .main ⟨.cancelVisibilityFence 1 2, { Faults.none with persistRanges := true }⟩,
    .command .main ⟨.cancelVisibilityFence 1 3, .none⟩]

/-- A batch whose caller asked for a fence before it was begun, and a commit and a
cancellation of the fence. -/
def overtakenCommit : List WriterStep :=
  [.command .main ⟨.appendBatch 0 [{ plainItem "b" 11 4 with dagLane := 1 }] 2, .none⟩,
    .command .main ⟨.commitVisibilityFence 1 3, .none⟩,
    .command .main ⟨.cancelVisibilityFence 1 4, .none⟩]

/-- Both lose the fence with its reply. -/
theorem failed_completions_lose_replies :
    (¬∀ core ∈ (run (lifecycleStep .small .unsigned) .blank openFencedRun).core?,
      ∀ fence ∈ core.fenceLedger,
        FenceFate fence (run (writerStep .small .unsigned) core retriedCancel)) ∧
    ¬∀ core ∈ (run (lifecycleStep .small .unsigned) .blank openFencedRun).core?,
      ∀ fence ∈ core.fenceLedger,
        FenceFate fence (run (writerStep .small .unsigned) core overtakenCommit) := by
  decide +kernel

end Batpak.Store
