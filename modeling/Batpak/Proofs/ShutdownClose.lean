/-
Module: Batpak.Proofs.ShutdownClose
Purpose: How a shutdown closes the writer: who has been answered, what becomes of a fence that
  is still open and what has been synced, in whichever phase the shutdown is executed.
Trusted boundary: none
Main exports: ShutDown, shutdown_closes
-/
import Batpak.Store.LoopMachine
import Batpak.Proofs.BatchEffects
import Batpak.Store.Open

namespace Batpak.Store

open Batpak.Util

variable {flt : Faults} {q : QueuedCommand} {rest : List QueuedCommand} {drained : Nat}
variable {m : LoopMachine} {s : WriterCore}

/-! ### Who is answered and who waits -/

def PendingFenceResponse.respond : PendingFenceResponse → Nat
  | .single respond _ => respond
  | .batch respond _ => respond

/-- The channels that wait for the open fence. -/
def waiting (s : WriterCore) : List Nat :=
  ((s.fenceLedger.map (·.responses)).getD []).map (·.respond)

/-- The channels that have been answered or wait for the open fence. -/
def answering (s : WriterCore) : List Nat :=
  s.replies.map Prod.fst ++ waiting s

/-- The open fence of the writer is the active fence of the gate. -/
def Tokens (s : WriterCore) : Prop :=
  ∀ fence ∈ s.fenceLedger, s.index.gate.activeFence = fence.token ∧ fence.token ≠ 0

/-- Neither the replies nor the fences nor who waits for which have changed. -/
structure SameWaiting (s s' : WriterCore) : Prop where
  replies : s'.replies = s.replies
  ledger : s'.fenceLedger.map (fun f => (f.identity, f.token, f.responses)) =
    s.fenceLedger.map fun f => (f.identity, f.token, f.responses)
  active : s'.index.gate.activeFence = s.index.gate.activeFence
  committed : s'.committedFences = s.committedFences
  count : s'.fenceCount = s.fenceCount

namespace SameWaiting

variable {s' s'' : WriterCore}

theorem refl (s : WriterCore) : SameWaiting s s :=
  ⟨rfl, rfl, rfl, rfl, rfl⟩

theorem trans (h : SameWaiting s s') (h' : SameWaiting s' s'') : SameWaiting s s'' :=
  ⟨h'.replies.trans h.replies, h'.ledger.trans h.ledger, h'.active.trans h.active,
    h'.committed.trans h.committed, h'.count.trans h.count⟩

theorem answering_eq (h : SameWaiting s s') : answering s' = answering s := by
  have hledger := congrArg (fun l : Option (Nat × Nat × List PendingFenceResponse) =>
    ((l.map (·.2.2)).getD []).map (·.respond)) h.ledger
  simp only [Option.map_map] at hledger
  unfold answering
  rw [h.replies]
  congr 1

theorem tokens (h : SameWaiting s s') (hs : Tokens s) : Tokens s' := by
  intro fence hfence
  have hledger := h.ledger
  rw [Option.mem_def.mp hfence, Option.map_some] at hledger
  obtain ⟨before, hbefore, heq⟩ := Option.map_eq_some_iff.mp hledger.symm
  have htoken : before.token = fence.token := congrArg (·.2.1) heq
  rw [h.active, ← htoken]
  exact hs before hbefore

theorem of_diskOnly (h : DiskOnly s s') : SameWaiting s s' :=
  ⟨h.replies, by rw [h.fenceLedger], by rw [h.index], h.committedFences, h.fenceCount⟩

theorem of_uncommitted {n : Nat} (h : Uncommitted n s s') : SameWaiting s s' :=
  ⟨h.replies, by rw [h.fenceLedger], by rw [h.gate]; rfl, h.committedFences, h.fenceCount⟩

end SameWaiting

theorem publishCommitted_sameWaiting (fenced : Bool) (first upTo : Nat) (point : HlcPoint)
    (notifications : List Notification) (s : WriterCore) :
    SameWaiting s (finalState (publishCommitted fenced first upTo point notifications s)) := by
  unfold publishCommitted
  cases fenced with
  | true =>
      rw [if_pos rfl]
      unfold recordFenceProgress
      split
      · exact .refl s
      · rename_i fence hfence
        dsimp only
        split
        · exact ⟨rfl, by rw [hfence]; rfl, rfl, rfl, rfl⟩
        · rename_i gate hgate
          refine ⟨rfl, by rw [hfence]; rfl, ?_, rfl, rfl⟩
          unfold SequenceGate.noteFenceProgress at hgate
          split at hgate
          · cases hgate
            rfl
          · cases hgate
  | false =>
      rw [if_neg (by decide)]
      unfold publishThenBroadcastUnfenced
      split
      · exact .refl s
      · rename_i gate hgate
        obtain ⟨-, -, rfl⟩ := SequenceGate.publishOnLanes_ok hgate
        exact ⟨rfl, rfl, rfl, rfl, rfl⟩

theorem handleAppend_sameWaiting (cfg : StoreConfig) (rt : Runtime) (flt : Faults)
    (req : AppendRequest) (fenced : Bool) (s : WriterCore) :
    SameWaiting s (finalState (handleAppend cfg rt flt req fenced s)) := by
  have hcases := handleAppend_cases cfg rt flt req fenced s
  generalize handleAppend cfg rt flt req fenced s = outcome at hcases ⊢
  cases hcases with
  | failed e s' quiet => exact .of_uncommitted quiet
  | replayed key receipt keyed guarded known => exact .refl s
  | committed st pos s₀ s₁ quiet guarded fresh sameSegment prepared =>
      have hstaged := (SameWaiting.of_uncommitted quiet).trans (.of_diskOnly prepared.diskOnly)
      have hcommitted : SameWaiting s₁ (commitState req.idempotencyKey.isSome st pos s₁) :=
        ⟨rfl, rfl, rfl, rfl, rfl⟩
      unfold publishAppend
      rw [finalState_bind_pure]
      exact (hstaged.trans hcommitted).trans (publishCommitted_sameWaiting ..)

theorem handleAppendBatch_sameWaiting (cfg : StoreConfig) (rt : Runtime) (flt : Faults)
    (nowUs : Int) (items : List BatchAppendItem) (fenced : Bool) (s : WriterCore) :
    SameWaiting s (finalState (handleAppendBatch cfg rt flt nowUs items fenced s)) := by
  have hcases := handleAppendBatch_cases cfg rt flt nowUs items fenced s
  generalize handleAppendBatch cfg rt flt nowUs items fenced s = outcome at hcases ⊢
  cases hcases with
  | failed e n s' quiet => exact .of_uncommitted quiet
  | replayed receipts known => exact .refl s
  | committed staged receipts s₀ s₁ nonempty fresh homogeneous quiet prepared =>
      have hstaged := (SameWaiting.of_uncommitted quiet).trans (.of_diskOnly prepared.diskOnly)
      have hcommitted : SameWaiting s₁
          (commitBatchState (batchKeyed items) staged receipts s₁) := by
        refine ⟨rfl, rfl, ?_, rfl, rfl⟩
        unfold commitBatchState
        dsimp only
        rw [StoreIndex.insertBatch_gate]
      unfold publishBatch
      rw [finalState_bind_pure]
      exact (hstaged.trans hcommitted).trans (publishCommitted_sameWaiting ..)

/-! ### Closing a fence -/

theorem channels_okReply (rs : List PendingFenceResponse) :
    (rs.map (·.okReply)).reverse.map Prod.fst = (rs.map (·.respond)).reverse := by
  rw [List.map_reverse, List.map_map]
  congr 2
  funext r
  cases r <;> rfl

theorem channels_cancelledReply (rs : List PendingFenceResponse) :
    (rs.map (·.cancelledReply)).reverse.map Prod.fst = (rs.map (·.respond)).reverse := by
  rw [List.map_reverse, List.map_map]
  congr 2
  funext r
  cases r <;> rfl

/-- Closing the ledger with all its responses answered answers those who waited. -/
theorem answering_close {s s' : WriterCore} {fence : FenceLedger} {replies : List (Nat × Reply)}
    (hledger : s.fenceLedger = some fence) (hclosed : s'.fenceLedger = none)
    (hreplies : s'.replies = replies ++ s.replies)
    (hchannels : replies.map Prod.fst = (fence.responses.map (·.respond)).reverse) :
    (answering s').Perm (answering s) := by
  have hwaiting : waiting s = fence.responses.map (·.respond) := by
    unfold waiting
    rw [hledger]
    rfl
  have hwaiting' : waiting s' = [] := by
    unfold waiting
    rw [hclosed]
    rfl
  unfold answering
  rw [hwaiting, hwaiting', hreplies, List.map_append, hchannels, List.append_nil]
  exact (List.perm_append_comm).trans (List.Perm.append_left _ (List.reverse_perm _))

theorem tokens_of_closed (h : s.fenceLedger = none) : Tokens s := by
  intro fence hfence
  rw [h] at hfence
  cases hfence

/-- An operation that answers nobody itself: those who waited still wait or have been
answered. -/
def Settles (s s' : WriterCore) : Prop :=
  (answering s').Perm (answering s) ∧ (Tokens s → Tokens s')

theorem SameWaiting.settles {s s' : WriterCore} (h : SameWaiting s s') : Settles s s' :=
  ⟨by rw [h.answering_eq], h.tokens⟩

theorem Settles.trans {s s' s'' : WriterCore} (h : Settles s s') (h' : Settles s' s'') :
    Settles s s'' :=
  ⟨h'.1.trans h.1, fun hs => h'.2 (h.2 hs)⟩

theorem beginVisibilityFence_settles (token : Nat) (s : WriterCore) :
    Settles s (finalState (beginVisibilityFence token s)) := by
  refine beginVisibilityFence_cases (SameWaiting.refl s).settles ?_
  intro hnone hactive hreal
  constructor
  · unfold answering waiting
    rw [hnone]
    exact .refl _
  · rintro - fence ⟨⟩
    exact ⟨hactive, hreal⟩

/-- A commit that the gate accepts, or that is refused before the ledger is taken. -/
theorem commitVisibilityFence_settles (token : Nat) (s : WriterCore)
    (hgate : ∀ fence ∈ s.fenceLedger, fence.token = token →
      ∃ gate, s.index.gate.finishFenceOnLanes token fence.publishUpTo
        (laneBounds fence.notifications) = .ok gate) :
    Settles s (finalState (commitVisibilityFence token s)) := by
  refine commitVisibilityFence_cases (SameWaiting.refl s).settles ?_ ?_
  · intro fence e hledger htoken hrefused
    obtain ⟨gate, hok⟩ := hgate fence hledger htoken
    rw [hok] at hrefused
    cases hrefused
  · intro fence gate hledger _ _
    exact ⟨answering_close hledger rfl rfl (channels_okReply _), fun _ => tokens_of_closed rfl⟩

/-- A cancellation that can persist its ranges. -/
theorem cancelVisibilityFence_settles (flt : Faults) (token : Nat) (s : WriterCore)
    (hs : Tokens s) (hpersist : ∀ fence ∈ s.fenceLedger, fence.token = token →
      flt.persistRanges = false) :
    Settles s (finalState (cancelVisibilityFence flt token s)) := by
  refine cancelVisibilityFence_cases (SameWaiting.refl s).settles ?_ ?_
  · intro fence hledger htoken hfails
    rcases hfails with hfails | hother
    · rw [hpersist fence hledger htoken] at hfails
      cases hfails
    · exact absurd ((hs fence hledger).1.trans htoken) hother
  · intro fence hledger _
    exact ⟨answering_close hledger rfl rfl (channels_cancelledReply _),
      fun _ => tokens_of_closed rfl⟩

/-! ### One command -/

/-- A command does not lose the receipts of the open fence. A commit that is reached is
accepted by the gate, and a cancellation can persist its ranges. -/
def Survives (phase : WriterLoopPhase) (q : QueuedCommand) (s : WriterCore) : Prop :=
  match q.command with
  | .commitVisibilityFence token _ => (phase = .shutdownDrain ∨ q.faults.sync = false) →
      ∀ fence ∈ s.fenceLedger, fence.token = token →
        ∃ gate, s.index.gate.finishFenceOnLanes token fence.publishUpTo
          (laneBounds fence.notifications) = .ok gate
  | .cancelVisibilityFence token _ =>
      ∀ fence ∈ s.fenceLedger, fence.token = token → q.faults.persistRanges = false
  | _ => True

/-- One more channel has been answered or waits. -/
def AnswersOne (respond : Nat) (s s' : WriterCore) : Prop :=
  (answering s').Perm (respond :: answering s) ∧ (Tokens s → Tokens s')

theorem sendReply_answers (respond : Nat) (reply : Reply) (s : WriterCore) :
    AnswersOne respond s (sendReply respond reply s) :=
  ⟨.refl _, fun hs => hs⟩

theorem Settles.answers {respond : Nat} {s s' s'' : WriterCore} (h : Settles s s')
    (h' : AnswersOne respond s' s'') : AnswersOne respond s s'' :=
  ⟨h'.1.trans (h.1.cons _), fun hs => h'.2 (h.2 hs)⟩

theorem respondWith_answers {α : Type} (respond : Nat) (mk : Except StoreError α → Reply)
    (m : WriterM α) (h : Settles s (finalState (m s))) :
    AnswersOne respond s (respondWith respond mk m s) := by
  unfold respondWith
  cases hm : m s with
  | ok a s' =>
      rw [hm] at h
      exact h.answers (sendReply_answers ..)
  | error e s' =>
      rw [hm] at h
      exact h.answers (sendReply_answers ..)

theorem underFence_answers {α : Type} (token respond : Nat) (mk : Except StoreError α → Reply)
    (pending : α → PendingFenceResponse) (hpending : ∀ a, (pending a).respond = respond)
    (m : WriterM α) (h : SameWaiting s (finalState (m s))) :
    AnswersOne respond s (underFence token respond mk pending m s).2 := by
  unfold underFence
  split
  · rename_i htoken
    cases hm : m s with
    | error e s' =>
        rw [hm] at h
        exact h.settles.answers (sendReply_answers ..)
    | ok a s' =>
        rw [hm] at h
        dsimp only
        have h : SameWaiting s s' := h
        obtain ⟨fence, hfence⟩ : ∃ fence, s'.fenceLedger = some fence := by
          cases hledger : s'.fenceLedger with
          | some fence => exact ⟨fence, rfl⟩
          | none =>
              have hmap := congrArg (Option.map (·.2.1)) h.ledger
              simp only [hledger, Option.map_map, Option.map_none] at hmap
              change none = s.fenceLedger.map (·.token) at hmap
              rw [htoken] at hmap
              cases hmap
        refine ⟨?_, ?_⟩
        · rw [← h.answering_eq]
          unfold answering waiting
          rw [hfence]
          simp only [Option.map_some, Option.getD_some, List.map_append, List.map_cons,
            List.map_nil, hpending]
          rw [← List.append_assoc]
          exact List.perm_append_comm
        · intro hs fence' hfence'
          rw [hfence] at hfence'
          cases hfence'
          exact h.tokens hs fence hfence
  · exact sendReply_answers ..

theorem syncOutcome_settles (flt : Faults) (s : WriterCore) : Settles s (syncOutcome flt s).2 :=
  (SameWaiting.of_diskOnly (syncOutcome_diskOnly flt s)).settles

/-- A command that waits for the sync barrier is answered after it. -/
theorem settle_answers {result : CommandResult} {respond : Nat}
    (hmust : result.mustSyncBeforeContinue = true)
    (hsend : ∀ syncResult, (flt.sync = true → syncResult ≠ .ok ()) →
      AnswersOne respond (syncOutcome flt s).2
        (result.deferredReply.send syncResult (syncOutcome flt s).2)) :
    AnswersOne respond s (settle flt result s) := by
  unfold settle
  rw [if_pos hmust]
  apply (syncOutcome_settles flt s).answers
  apply hsend
  intro hfails
  unfold syncActiveSegment
  rw [if_pos hfails]
  exact fun h => by cases h

/-- Every command but a shutdown in the main loop is answered, or waits for its fence. -/
theorem runCommand_answers (cfg : StoreConfig) (rt : Runtime) {phase : WriterLoopPhase}
    (hs : Tokens s) (hq : Survives phase q s)
    (hphase : phase = .main → ∀ respond, q.command ≠ .shutdown respond) :
    AnswersOne q.command.respond s (runCommand cfg rt q.faults phase q.command s) := by
  obtain ⟨cmd, flt⟩ := q
  have hdisk := SameWaiting.of_diskOnly (syncOutcome_diskOnly flt s)
  cases cmd with
  | append req respond =>
      exact respondWith_answers _ _ _ (handleAppend_sameWaiting ..).settles
  | appendBatch nowUs items respond =>
      exact respondWith_answers _ _ _ (handleAppendBatch_sameWaiting ..).settles
  | fenceAppend token req respond =>
      exact underFence_answers _ _ _ (.single respond) (fun _ => rfl) _ (handleAppend_sameWaiting ..)
  | fenceAppendBatch token nowUs items respond =>
      exact underFence_answers _ _ _ (.batch respond) (fun _ => rfl) _
        (handleAppendBatch_sameWaiting ..)
  | cancelVisibilityFence token respond =>
      exact respondWith_answers _ _ _ (cancelVisibilityFence_settles flt token s hs hq)
  | beginVisibilityFence token respond =>
      have hnow : AnswersOne respond s (respondWith respond .unit (beginVisibilityFence token) s) :=
        respondWith_answers _ _ _ (beginVisibilityFence_settles token s)
      cases phase with
      | main => exact hnow
      | shutdownDrain => exact hnow
      | groupCommitDrain =>
          apply settle_answers rfl
          intro syncResult _
          cases syncResult with
          | error e => exact sendReply_answers ..
          | ok u => exact respondWith_answers _ _ _ (beginVisibilityFence_settles token _)
  | commitVisibilityFence token respond =>
      have hdeferred : ∀ result : CommandResult, result.mustSyncBeforeContinue = true →
          result.deferredReply = .commitVisibilityFence token respond → phase ≠ .shutdownDrain →
          AnswersOne respond s (settle flt result s) := by
        intro result hmust hreply hphase
        apply settle_answers hmust
        intro syncResult hsync
        rw [hreply]
        cases syncResult with
        | error e => exact sendReply_answers ..
        | ok u =>
            apply respondWith_answers
            apply commitVisibilityFence_settles
            rw [(syncOutcome_diskOnly flt s).index, (syncOutcome_diskOnly flt s).fenceLedger]
            apply hq
            right
            by_contra hfails
            rw [Bool.not_eq_false] at hfails
            exact hsync hfails rfl
      cases phase with
      | main => exact hdeferred _ rfl rfl (by decide)
      | groupCommitDrain => exact hdeferred _ rfl rfl (by decide)
      | shutdownDrain =>
          apply respondWith_answers
          exact commitVisibilityFence_settles token s (hq (.inl rfl))
  | sync respond =>
      have hdeferred : ∀ result : CommandResult, result.mustSyncBeforeContinue = true →
          result.deferredReply = .sync respond → AnswersOne respond s (settle flt result s) := by
        intro result hmust hreply
        apply settle_answers hmust
        intro syncResult _
        rw [hreply]
        exact sendReply_answers ..
      cases phase with
      | main => exact hdeferred _ rfl rfl
      | groupCommitDrain => exact hdeferred _ rfl rfl
      | shutdownDrain =>
          apply respondWith_answers
          apply SameWaiting.settles
          apply SameWaiting.of_diskOnly
          exact Post.finalState (@syncActiveSegment_diskOnly s flt s (DiskOnly.refl s))
  | shutdown respond =>
      cases phase with
      | main => exact absurd rfl (hphase rfl respond)
      | shutdownDrain => exact sendReply_answers ..
      | groupCommitDrain =>
          apply settle_answers rfl
          intro syncResult _
          exact sendReply_answers ..

/-! ### The end of a shutdown -/

/-- Nothing fails at the end of a shutdown. -/
def CanFinish (flt : Faults) (s : WriterCore) : Prop :=
  flt.sync = false ∧ (s.fenceLedger.isSome = true → flt.persistRanges = false)

theorem syncOutcome_active (h : flt.sync = false) (s : WriterCore) :
    (syncOutcome flt s).2.active = s.active.sync := by
  unfold syncOutcome syncActiveSegment
  rw [h]
  rfl

/-- The cancellation at a shutdown answers those who waited, whether the ranges can be persisted
or not. -/
theorem autoCancel_settles (flt : Faults) (s : WriterCore) :
    Settles s (autoCancelFenceOnShutdown flt s) := by
  refine autoCancelFenceOnShutdown_cases (fun _ => (SameWaiting.refl s).settles) ?_
  intro fence hledger
  exact ⟨answering_close hledger rfl rfl (channels_cancelledReply _), fun _ => tokens_of_closed rfl⟩

/-- The fence still open is cancelled and its ranges persisted. -/
theorem autoCancel_closes (hs : Tokens s)
    (hpersist : s.fenceLedger.isSome = true → flt.persistRanges = false) :
    (autoCancelFenceOnShutdown flt s).fenceLedger = none ∧
    (∀ start stop, s.fenceLedger.isSome = true → s.index.gate.activeFenceRange = some (start, stop) →
      ∀ x, start ≤ x → x < stop →
        rangeContains (autoCancelFenceOnShutdown flt s).index.gate.cancelledRanges x = true) ∧
    (s.fenceLedger.isSome = true → (autoCancelFenceOnShutdown flt s).hiddenRanges =
      some (autoCancelFenceOnShutdown flt s).index.gate.cancelledRangesSnapshot) := by
  refine autoCancelFenceOnShutdown_cases ?_ ?_
  · intro hnone
    rw [hnone]
    exact ⟨rfl, fun _ _ hsome => absurd hsome Bool.false_ne_true,
      fun hsome => absurd hsome Bool.false_ne_true⟩
  · intro fence hledger
    obtain ⟨hactive, hreal⟩ := hs fence hledger
    rw [if_neg (by rw [hpersist (by rw [hledger]; rfl)]; exact Bool.false_ne_true)]
    refine ⟨rfl, ?_, fun _ => rfl⟩
    intro start stop _ hrange x hlow hhigh
    change rangeContains (s.gateAfterCancel fence.token).cancelledRanges x = true
    unfold SequenceGate.activeFenceRange at hrange
    unfold WriterCore.gateAfterCancel SequenceGate.cancelFence
    rw [if_neg (by rw [hactive]; exact hreal)] at hrange
    rw [if_pos hactive]
    cases hstart : s.index.gate.activeFenceStart with
    | none =>
        rw [hstart] at hrange
        cases hrange
    | some first =>
        rw [hstart] at hrange
        dsimp only at hrange ⊢
        split at hrange
        · rename_i hlt
          cases hrange
          rw [if_pos hlt, rangeContains_insertRange]
          simp [hlow, hhigh]
        · cases hrange

/-- What a shutdown leaves, from the state its last step starts in: no fence is open, the one
that was open is cancelled with its ranges on disk, the active segment is synced, and every
command taken from the queue has been answered once. -/
structure ShutDown (before after : LoopMachine) : Prop where
  closed : after.core.fenceLedger = none
  cancelled : ∀ start stop, before.core.fenceLedger.isSome = true →
    before.core.index.gate.activeFenceRange = some (start, stop) → ∀ x, start ≤ x → x < stop →
      rangeContains after.core.index.gate.cancelledRanges x = true
  persisted : before.core.fenceLedger.isSome = true →
    after.core.hiddenRanges = some after.core.index.gate.cancelledRangesSnapshot
  synced : after.core.active.syncedFrames = after.core.active.frames
  answered : (after.core.replies.map Prod.fst).Perm after.taken

/-! ### Runs -/

section Runs

variable {cfg : StoreConfig} {rt : Runtime}

def WriterCommand.isShutdown : WriterCommand → Bool
  | .shutdown _ => true
  | _ => false

/-- A move of the writer loses no receipt. A shutdown that the group-commit drain executes
finds no fence open, and nothing fails at the end of a shutdown. -/
def Orderly (cfg : StoreConfig) (m : LoopMachine) : LoopStep → Prop
  | .enqueue _ => True
  | .beginFence => True
  | .next =>
      match m.mode, m.queue with
      | .main, q :: _ => Survives .main q m.core
      | .draining drained _, q :: _ => drained < cfg.groupCommitDrainBudget →
          Survives .groupCommitDrain q m.core ∧
            (q.command.isShutdown = true →
              m.core.fenceLedger.isNone = true ∧ q.faults.sync = false)
      | .shuttingDown _ flt drained, q :: _ =>
          if drained < cfg.shutdownDrainLimit then Survives .shutdownDrain q m.core
          else CanFinish flt m.core
      | .shuttingDown _ flt _, [] => CanFinish flt m.core
      | _, _ => True

/-- The shutdown whose drain is going on has been taken and is still to be answered. -/
def LoopMode.owed : LoopMode → List Nat
  | .shuttingDown respond _ _ => [respond]
  | _ => []

/-- Every command taken has been answered once, waits for the open fence, or is the shutdown
in progress. -/
structure Accounted (m : LoopMachine) : Prop where
  tokens : Tokens m.core
  answered : (m.mode.owed ++ answering m.core).Perm m.taken

theorem resume_accounted (flt : Faults) (htokens : Tokens m.core)
    (hanswered : (answering m.core).Perm m.taken) : Accounted (m.resume cfg flt) := by
  have hsettles : Settles m.core (m.resume cfg flt).core := by
    unfold LoopMachine.resume periodicSync
    dsimp only
    split
    · exact syncOutcome_settles _ m.core
    · exact (SameWaiting.refl m.core).settles
  exact ⟨hsettles.2 htokens, hsettles.1.trans hanswered⟩

/-- A command executed in the main loop, when it is not a shutdown. -/
theorem takeMain_eq (cfg : StoreConfig) (rt : Runtime) (q : QueuedCommand) (m : LoopMachine)
    (hq : ∀ respond, q.command ≠ .shutdown respond) :
    ∃ events mode, (m.takeMain cfg rt q =
        { m with
          core := runCommand cfg rt q.faults .main q.command m.core
          eventsSinceSync := events
          mode := .draining mode q.faults }) ∨
      m.takeMain cfg rt q = LoopMachine.resume cfg q.faults
        { m with
          core := runCommand cfg rt q.faults .main q.command m.core
          eventsSinceSync := events } := by
  obtain ⟨cmd, flt⟩ := q
  cases cmd with
  | append req respond => exact ⟨_, _, .inl rfl⟩
  | fenceAppend token req respond => exact ⟨_, 0, .inr rfl⟩
  | appendBatch nowUs items respond => exact ⟨_, 0, .inr rfl⟩
  | fenceAppendBatch token nowUs items respond => exact ⟨_, 0, .inr rfl⟩
  | beginVisibilityFence token respond => exact ⟨_, 0, .inr rfl⟩
  | commitVisibilityFence token respond => exact ⟨_, 0, .inr rfl⟩
  | cancelVisibilityFence token respond => exact ⟨_, 0, .inr rfl⟩
  | sync respond => exact ⟨_, 0, .inr rfl⟩
  | shutdown respond => exact absurd rfl (hq respond)

theorem takeMain_accounted (h : Accounted m) (hmode : m.mode = .main)
    (hq : Survives .main q m.core) :
    Accounted ((m.pop q rest).takeMain cfg rt q) := by
  have hanswered : (answering m.core).Perm m.taken := by
    have := h.answered
    rw [hmode] at this
    exact this
  by_cases hshutdown : ∃ respond, q.command = .shutdown respond
  · obtain ⟨respond, hrespond⟩ := hshutdown
    obtain ⟨cmd, flt⟩ := q
    dsimp only at hrespond
    subst hrespond
    exact ⟨h.tokens, hanswered.cons respond⟩
  · have hne : ∀ respond, q.command ≠ .shutdown respond :=
      fun respond heq => hshutdown ⟨respond, heq⟩
    obtain ⟨hperm, htokens⟩ := runCommand_answers cfg rt h.tokens hq fun _ => hne
    have hperm' := hperm.trans (hanswered.cons q.command.respond)
    obtain ⟨events, mode, heq | heq⟩ := takeMain_eq cfg rt q (m.pop q rest) hne
    · rw [heq]
      exact ⟨htokens h.tokens, hperm'⟩
    · rw [heq]
      exact resume_accounted q.faults (htokens h.tokens) hperm'

theorem takeDraining_accounted (h : Accounted m)
    (hmode : m.mode = .draining drained flt) (hq : Survives .groupCommitDrain q m.core) :
    Accounted ((m.pop q rest).takeDraining cfg rt drained flt q) := by
  have hanswered : (answering m.core).Perm m.taken := by
    have := h.answered
    rw [hmode] at this
    exact this
  obtain ⟨hperm, htokens⟩ := runCommand_answers cfg rt h.tokens hq fun hmain => by cases hmain
  have hperm' := hperm.trans (hanswered.cons q.command.respond)
  unfold LoopMachine.takeDraining
  dsimp only
  split
  · exact ⟨htokens h.tokens, hperm'⟩
  · split
    · exact resume_accounted flt (htokens h.tokens) hperm'
    · exact ⟨htokens h.tokens, hperm'⟩

theorem takeShuttingDown_accounted {respond : Nat} (h : Accounted m)
    (hmode : m.mode = .shuttingDown respond flt drained) (hq : Survives .shutdownDrain q m.core) :
    Accounted ((m.pop q rest).takeShuttingDown cfg rt respond flt drained q) := by
  have hanswered : ([respond] ++ answering m.core).Perm m.taken := by
    have := h.answered
    rw [hmode] at this
    exact this
  obtain ⟨hperm, htokens⟩ := runCommand_answers cfg rt h.tokens hq fun hmain => by cases hmain
  refine ⟨htokens h.tokens, ?_⟩
  change ([respond] ++ answering (runCommand cfg rt q.faults .shutdownDrain q.command m.core)).Perm
    (q.command.respond :: m.taken)
  refine ((hperm.append_left [respond]).trans ?_).trans (hanswered.cons q.command.respond)
  exact List.perm_middle

/-- The last step of a shutdown that the main loop took. -/
theorem completeShutdown_closes {respond : Nat} (h : Accounted m)
    (hmode : m.mode = .shuttingDown respond flt drained) (hfinish : CanFinish flt m.core) :
    ShutDown m { m with core := completeShutdown respond flt m.core, mode := .exited } := by
  obtain ⟨hclosed, hcancelled, hpersisted⟩ := autoCancel_closes h.tokens hfinish.2
  obtain ⟨hperm, -⟩ := autoCancel_settles flt m.core
  have hanswered : ([respond] ++ answering m.core).Perm m.taken := by
    have := h.answered
    rw [hmode] at this
    exact this
  have hfooter : ∃ active, (finishShutdown flt m.core).2 =
      (syncOutcome flt { autoCancelFenceOnShutdown flt m.core with active := active }).2 := by
    unfold finishShutdown
    dsimp only
    split
    · exact ⟨(autoCancelFenceOnShutdown flt m.core).active, rfl⟩
    · exact ⟨_, rfl⟩
  obtain ⟨active, hfinal⟩ := hfooter
  have hdisk := syncOutcome_diskOnly flt
    { autoCancelFenceOnShutdown flt m.core with active := active }
  rw [← hfinal] at hdisk
  have hsynced := syncOutcome_active hfinish.1
    { autoCancelFenceOnShutdown flt m.core with active := active }
  rw [← hfinal] at hsynced
  refine ⟨hdisk.fenceLedger.trans hclosed, ?_, ?_, ?_, ?_⟩
  · intro start stop hsome hrange x hlow hhigh
    change rangeContains (finishShutdown flt m.core).2.index.gate.cancelledRanges x = true
    rw [hdisk.index]
    exact hcancelled start stop hsome hrange x hlow hhigh
  · intro hsome
    change (finishShutdown flt m.core).2.hiddenRanges =
      some (finishShutdown flt m.core).2.index.gate.cancelledRangesSnapshot
    rw [hdisk.hiddenRanges, hdisk.index]
    exact hpersisted hsome
  · change (finishShutdown flt m.core).2.active.syncedFrames =
      (finishShutdown flt m.core).2.active.frames
    rw [hsynced]
    exact Segment.sync_syncedFrames _
  · change (respond :: (finishShutdown flt m.core).2.replies.map Prod.fst).Perm m.taken
    rw [hdisk.replies]
    have hwaiting : answering (autoCancelFenceOnShutdown flt m.core) =
        (autoCancelFenceOnShutdown flt m.core).replies.map Prod.fst := by
      unfold answering waiting
      rw [hclosed]
      exact List.append_nil _
    rw [hwaiting] at hperm
    exact (hperm.cons respond).trans hanswered

/-- Only a shutdown ends the writer from the group-commit drain. -/
theorem takeDraining_exits (h : (m.takeDraining cfg rt drained flt q).mode = .exited) :
    ∃ respond, q.command = .shutdown respond := by
  obtain ⟨cmd, faults⟩ := q
  cases cmd with
  | append req respond => cases h
  | fenceAppend token req respond => cases h
  | appendBatch nowUs items respond => cases h
  | fenceAppendBatch token nowUs items respond => cases h
  | beginVisibilityFence token respond => cases h
  | commitVisibilityFence token respond => cases h
  | cancelVisibilityFence token respond => cases h
  | sync respond => cases h
  | shutdown respond => exact ⟨respond, rfl⟩

/-- A shutdown that the group-commit drain takes while no fence is open. -/
theorem takeDraining_closes {respond : Nat} {faults : Faults} (h : Accounted m)
    (hmode : m.mode = .draining drained flt) (hledger : m.core.fenceLedger = none)
    (hsync : faults.sync = false) :
    ShutDown m ((m.pop ⟨.shutdown respond, faults⟩ rest).takeDraining cfg rt drained flt
      ⟨.shutdown respond, faults⟩) := by
  have haccounted : Accounted ((m.pop ⟨.shutdown respond, faults⟩ rest).takeDraining cfg rt drained
      flt ⟨.shutdown respond, faults⟩) := takeDraining_accounted h hmode trivial
  have hdisk := syncOutcome_diskOnly faults m.core
  have hclosed : (syncOutcome faults m.core).2.fenceLedger = none := hdisk.fenceLedger.trans hledger
  refine ⟨hclosed, ?_, ?_, ?_, ?_⟩
  · intro start stop hsome
    rw [hledger] at hsome
    cases hsome
  · intro hsome
    rw [hledger] at hsome
    cases hsome
  · change (syncOutcome faults m.core).2.active.syncedFrames =
      (syncOutcome faults m.core).2.active.frames
    rw [syncOutcome_active hsync]
    exact Segment.sync_syncedFrames _
  · have hanswered := haccounted.answered
    change (_ ++ waiting (syncOutcome faults m.core).2).Perm _ at hanswered
    rw [waiting, hclosed] at hanswered
    simpa using hanswered

theorem ShutDown.accounted {before after : LoopMachine} (h : ShutDown before after)
    (hmode : after.mode = .exited) : Accounted after := by
  refine ⟨tokens_of_closed h.closed, ?_⟩
  rw [hmode]
  unfold answering waiting
  rw [h.closed]
  simpa [LoopMode.owed] using h.answered

/-- An orderly move keeps the account, and the one that ends the writer closes it. -/
theorem next_accounted (h : Accounted m) (hok : Orderly cfg m .next) :
    Accounted (m.next cfg rt) ∧
      (m.mode ≠ .exited → (m.next cfg rt).mode = .exited → ShutDown m (m.next cfg rt)) := by
  obtain ⟨core, queue, events, mode, taken⟩ := m
  cases mode with
  | exited => exact ⟨h, fun hne => absurd rfl hne⟩
  | main =>
      cases queue with
      | nil => exact ⟨h, fun _ hexit => by cases hexit⟩
      | cons q rest =>
          refine ⟨takeMain_accounted h rfl hok, ?_⟩
          intro _ hexit
          exfalso
          by_cases hshutdown : ∃ respond, q.command = .shutdown respond
          · obtain ⟨respond, hrespond⟩ := hshutdown
            obtain ⟨cmd, flt⟩ := q
            dsimp only at hrespond
            subst hrespond
            cases hexit
          · obtain ⟨_, _, heq | heq⟩ := takeMain_eq cfg rt q
              (LoopMachine.pop q rest ⟨core, q :: rest, events, .main, taken⟩)
              fun respond heq => hshutdown ⟨respond, heq⟩
            · change (LoopMachine.takeMain cfg rt q _).mode = _ at hexit
              rw [heq] at hexit
              cases hexit
            · change (LoopMachine.takeMain cfg rt q _).mode = _ at hexit
              rw [heq] at hexit
              cases hexit
  | draining drained flt =>
      have hanswered : (answering core).Perm taken := h.answered
      cases queue with
      | nil => exact ⟨resume_accounted flt h.tokens hanswered, fun _ hexit => by cases hexit⟩
      | cons q rest =>
          by_cases hbudget : drained < cfg.groupCommitDrainBudget
          · obtain ⟨hsurvives, hshutdown⟩ := hok hbudget
            have hnext : (⟨core, q :: rest, events, .draining drained flt, taken⟩ :
                LoopMachine).next cfg rt = LoopMachine.takeDraining cfg rt drained flt q
                  (LoopMachine.pop q rest ⟨core, q :: rest, events, .draining drained flt, taken⟩) :=
              if_pos hbudget
            rw [hnext]
            refine ⟨takeDraining_accounted h rfl hsurvives, ?_⟩
            intro _ hexit
            obtain ⟨respond, hrespond⟩ := takeDraining_exits hexit
            obtain ⟨hledger, hsync⟩ := hshutdown (by rw [hrespond]; rfl)
            obtain ⟨cmd, faults⟩ := q
            dsimp only at hrespond
            subst hrespond
            exact takeDraining_closes h rfl (Option.isNone_iff_eq_none.mp hledger) hsync
          · have hnext : (⟨core, q :: rest, events, .draining drained flt, taken⟩ :
                LoopMachine).next cfg rt = LoopMachine.resume cfg flt
                  ⟨core, q :: rest, events, .draining drained flt, taken⟩ := if_neg hbudget
            rw [hnext]
            exact ⟨resume_accounted flt h.tokens hanswered, fun _ hexit => by cases hexit⟩
  | shuttingDown respond flt drained =>
      cases queue with
      | nil =>
          have hclosed := completeShutdown_closes h rfl hok
          exact ⟨hclosed.accounted rfl, fun _ _ => hclosed⟩
      | cons q rest =>
          by_cases hlimit : drained < cfg.shutdownDrainLimit
          · have hnext : (⟨core, q :: rest, events, .shuttingDown respond flt drained, taken⟩ :
                LoopMachine).next cfg rt = LoopMachine.takeShuttingDown cfg rt respond flt drained q
                  (LoopMachine.pop q rest
                    ⟨core, q :: rest, events, .shuttingDown respond flt drained, taken⟩) :=
              if_pos hlimit
            have hsurvives : Survives .shutdownDrain q core := by
              unfold Orderly at hok
              dsimp only at hok
              rw [if_pos hlimit] at hok
              exact hok
            rw [hnext]
            exact ⟨takeShuttingDown_accounted h rfl hsurvives, fun _ hexit => by cases hexit⟩
          · have hnext : (⟨core, q :: rest, events, .shuttingDown respond flt drained, taken⟩ :
                LoopMachine).next cfg rt =
                  ⟨completeShutdown respond flt core, q :: rest, events, .exited, taken⟩ :=
              if_neg hlimit
            have hfinish : CanFinish flt core := by
              unfold Orderly at hok
              dsimp only at hok
              rw [if_neg hlimit] at hok
              exact hok
            have hclosed := completeShutdown_closes h rfl hfinish
            rw [hnext]
            exact ⟨hclosed.accounted rfl, fun _ _ => hclosed⟩

/-- A caller that begins a fence at the gate disturbs neither an open one nor its tokens. -/
theorem beginFence_accounted (h : Accounted m) :
    Accounted (loopStep cfg rt m .beginFence) := by
  refine ⟨?_, h.answered⟩
  intro fence hfence
  obtain ⟨hactive, hne⟩ := h.tokens fence hfence
  refine ⟨?_, hne⟩
  change m.core.index.gate.beginFence.2.activeFence = fence.token
  unfold SequenceGate.beginFence
  dsimp only
  rw [if_neg (by rw [hactive]; exact hne)]
  exact hactive

theorem accounted_step (m : LoopMachine) (step : LoopStep) (h : Accounted m)
    (hok : Orderly cfg m step) : Accounted (loopStep cfg rt m step) := by
  cases step with
  | enqueue q => exact ⟨h.tokens, h.answered⟩
  | beginFence => exact beginFence_accounted h
  | next => exact (next_accounted h hok).1

/-! ### The order of the queue -/

/-- The channels of the commands that arrive in a run, in order. -/
def arrivals (steps : List LoopStep) : List Nat :=
  steps.filterMap fun
    | .enqueue q => some q.command.respond
    | _ => none

/-- The channels of the commands that have arrived: those taken, then those still queued. -/
def LoopMachine.arrived (m : LoopMachine) : List Nat :=
  m.taken.reverse ++ m.queue.map (·.command.respond)

theorem arrived_pop (q : QueuedCommand) (rest : List QueuedCommand) (m : LoopMachine)
    (hqueue : m.queue = q :: rest) : (m.pop q rest).arrived = m.arrived := by
  unfold LoopMachine.arrived LoopMachine.pop
  rw [hqueue]
  simp

theorem arrived_next (m : LoopMachine) : (m.next cfg rt).arrived = m.arrived := by
  have hmain : ∀ q m, (LoopMachine.takeMain cfg rt q m).arrived = m.arrived := by
    intro q m
    unfold LoopMachine.takeMain
    dsimp only
    split
    · rfl
    · split
      · rfl
      · split
        · rfl
        · rfl
  have hdraining : ∀ drained flt q m,
      (LoopMachine.takeDraining cfg rt drained flt q m).arrived = m.arrived := by
    intro drained flt q m
    unfold LoopMachine.takeDraining
    dsimp only
    split
    · rfl
    · split
      · rfl
      · rfl
  unfold LoopMachine.next
  split
  · rfl
  · rename_i hqueue
    rw [hmain, arrived_pop _ _ _ hqueue]
  · rfl
  · rename_i hqueue
    split
    · rw [hdraining, arrived_pop _ _ _ hqueue]
    · rfl
  · rfl
  · rename_i hqueue
    split
    · exact arrived_pop _ _ _ hqueue
    · rfl
  · rfl

/-- The writer takes the commands in the order in which they were queued. -/
theorem arrived_run (steps : List LoopStep) (m : LoopMachine) :
    (run (loopStep cfg rt) m steps).arrived = m.arrived ++ arrivals steps := by
  induction steps generalizing m with
  | nil => exact (List.append_nil _).symm
  | cons step steps ih =>
      rw [run_cons, ih]
      cases step with
      | enqueue q =>
          change (m.taken.reverse ++ (m.queue ++ [q]).map _) ++ arrivals steps =
            m.arrived ++ (q.command.respond :: arrivals steps)
          simp [LoopMachine.arrived]
      | beginFence => rfl
      | next =>
          change (m.next cfg rt).arrived ++ _ = _
          rw [arrived_next]
          rfl

/-- In every orderly run of a spawned writer, in whichever phase the shutdown is executed, its
last step closes the writer: the fence still open is cancelled with its ranges on disk, the
active segment is synced, and every command that was taken, hence every one that arrived before
the shutdown, has been answered exactly once. -/
theorem shutdown_closes (cfg : StoreConfig) (rt : Runtime) (core : WriterCore)
    (hledger : core.fenceLedger = none) (hreplies : core.replies = []) (steps : List LoopStep)
    (h : Guarded (loopStep cfg rt) (Orderly cfg) (.start core) (steps ++ [.next])) :
    let before := run (loopStep cfg rt) (.start core) steps
    let after := run (loopStep cfg rt) (.start core) (steps ++ [.next])
    before.mode ≠ .exited → after.mode = .exited →
      ShutDown before after ∧ after.arrived = arrivals steps := by
  intro before after hrunning hexited
  obtain ⟨hbefore, hlast, -⟩ := (guarded_append _ _ _).mp h
  have haccounted : Accounted before := by
    apply run_invariant accounted_step steps _ _ hbefore
    refine ⟨tokens_of_closed hledger, ?_⟩
    change (core.replies.map Prod.fst ++ waiting core).Perm []
    rw [hreplies, waiting, hledger]
    exact .refl _
  have hafter : after = before.next cfg rt := run_append ..
  rw [hafter] at hexited ⊢
  refine ⟨(next_accounted haccounted hlast).2 hrunning hexited, ?_⟩
  rw [arrived_next, arrived_run]
  rfl

end Runs

/-! ### A shutdown in the main loop and one in the group-commit drain -/

instance decidableExited : (mode : LoopMode) → Decidable (mode = .exited)
  | .exited => isTrue rfl
  | .main => isFalse nofun
  | .draining .. => isFalse nofun
  | .shuttingDown .. => isFalse nofun

instance decidableSucceeds {ε α : Type} : (x : Except ε α) → Decidable (∃ a, x = .ok a)
  | .ok a => isTrue ⟨a, rfl⟩
  | .error _ => isFalse nofun

instance decidableSurvives (phase : WriterLoopPhase) (s : WriterCore) :
    (q : QueuedCommand) → Decidable (Survives phase q s)
  | ⟨.commitVisibilityFence .., _⟩ => inferInstanceAs (Decidable (_ → ∀ _ ∈ s.fenceLedger, _ → _))
  | ⟨.cancelVisibilityFence .., _⟩ => inferInstanceAs (Decidable (∀ _ ∈ s.fenceLedger, _ → _))
  | ⟨.append .., _⟩ | ⟨.fenceAppend .., _⟩ | ⟨.appendBatch .., _⟩ | ⟨.fenceAppendBatch .., _⟩
  | ⟨.beginVisibilityFence .., _⟩ | ⟨.sync .., _⟩ | ⟨.shutdown .., _⟩ =>
      inferInstanceAs (Decidable True)

instance decidableOrderly (cfg : StoreConfig) :
    (m : LoopMachine) → (step : LoopStep) → Decidable (Orderly cfg m step)
  | _, .enqueue _ | _, .beginFence => inferInstanceAs (Decidable True)
  | ⟨core, q :: _, _, .main, _⟩, .next => inferInstanceAs (Decidable (Survives .main q core))
  | ⟨_, _ :: _, _, .draining .., _⟩, .next => inferInstanceAs (Decidable (_ → _ ∧ (_ → _ ∧ _)))
  | ⟨_, _ :: _, _, .shuttingDown _ _ drained, _⟩, .next =>
      inferInstanceAs (Decidable (if drained < cfg.shutdownDrainLimit then _ else _ ∧ (_ → _)))
  | ⟨_, [], _, .shuttingDown .., _⟩, .next => inferInstanceAs (Decidable (_ ∧ (_ → _)))
  | ⟨_, [], _, .main, _⟩, .next | ⟨_, [], _, .draining .., _⟩, .next
  | ⟨_, [], _, .exited, _⟩, .next | ⟨_, _ :: _, _, .exited, _⟩, .next =>
      inferInstanceAs (Decidable True)

/-- A writer over an empty store. -/
def spawned : WriterCore :=
  .spawn .small (.new default default) [] none 1

def fencedArrivals : List LoopStep :=
  [.beginFence, .enqueue ⟨.beginVisibilityFence 1 0, .none⟩, .next,
    .enqueue ⟨.fenceAppend 1 (plainRequest "a" 10 4) 1, .none⟩, .next]

/-- A shutdown that the main loop takes while a fenced append waits, with a sync behind it. -/
def mainShutdown : List LoopStep :=
  fencedArrivals ++ [.enqueue ⟨.shutdown 2, .none⟩, .enqueue ⟨.sync 3, .none⟩, .next, .next]

/-- An append whose caller asked for an active fence just before this one was begun is queued
before the fenced append (the caller asks and sends under one lock, which a fenced append needs
too). It starts a group-commit drain, which takes the fenced append and then the shutdown. -/
def drainShutdown : List LoopStep :=
  [.beginFence, .enqueue ⟨.beginVisibilityFence 1 0, .none⟩, .next,
    .enqueue ⟨.append (plainRequest "b" 11 4) 2, .none⟩,
    .enqueue ⟨.fenceAppend 1 (plainRequest "a" 10 4) 1, .none⟩, .enqueue ⟨.shutdown 3, .none⟩,
    .next, .next, .next]

/-- The run after a list of steps of a writer over an empty store. -/
def shutdownRun (steps : List LoopStep) : LoopMachine :=
  run (loopStep .small .unsigned) (.start spawned) steps

theorem main_shutdown_closes :
    ShutDown (shutdownRun mainShutdown) (shutdownRun (mainShutdown ++ [.next])) ∧
      (shutdownRun (mainShutdown ++ [.next])).arrived = [0, 1, 2, 3] :=
  shutdown_closes .small .unsigned spawned rfl rfl mainShutdown (by decide +kernel)
    (by decide +kernel) (by decide +kernel)

/-- The writer has exited with the fence open: the append waiting for it was taken and is not
answered, and its range is not on disk. -/
theorem drain_shutdown_leaves_fence :
    (shutdownRun drainShutdown).mode = .exited ∧
    (shutdownRun drainShutdown).core.fenceLedger.isSome = true ∧
    (shutdownRun drainShutdown).core.hiddenRanges.isNone = true ∧
    1 ∈ (shutdownRun drainShutdown).taken ∧
    1 ∉ (shutdownRun drainShutdown).core.replies.map Prod.fst := by
  decide +kernel

end Batpak.Store
