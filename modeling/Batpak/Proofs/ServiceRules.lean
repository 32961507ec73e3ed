/-
Module: Batpak.Proofs.ServiceRules
Purpose: The invariant rule of the commands that are neither an append nor a batch: fences,
  syncs and the shutdown. A sync may be asked to run only in states it is safe in.
Trusted boundary: none
Main exports: ServiceRules, ServiceRules.runCommand
-/
import Batpak.Store.WriterLoop

namespace Batpak.Store

open Batpak.Util

/-- Whether a command that is neither an append nor a batch runs a sync. -/
def commandSyncs (loop : WriterLoopPhase) : WriterCommand → Bool
  | .sync _ => true
  | .commitVisibilityFence .. => loop ≠ .shutdownDrain
  | .beginVisibilityFence .. | .shutdown _ => loop = .groupCommitDrain
  | _ => false

/-- A command that appends events, one or many, under a fence or not. -/
def WriterCommand.appends : WriterCommand → Bool
  | .append .. | .fenceAppend .. | .appendBatch .. | .fenceAppendBatch .. => true
  | _ => false

/-- What has to be shown of an invariant `I`. A sync that fails or not, as the flag says,
may assume `S` of the state it starts from. -/
structure ServiceRules (I : WriterCore → Prop) (S : Bool → WriterCore → Prop) : Prop where
  reply : ∀ {s} respond reply, I s → I (sendReply respond reply s)
  beginFence : ∀ {s} token, I s → I (finalState (beginVisibilityFence token s))
  commitFence : ∀ {s} token, I s → I (finalState (commitVisibilityFence token s))
  cancelFence : ∀ {s} flt token, I s → I (finalState (cancelVisibilityFence flt token s))
  autoCancel : ∀ {s} flt, I s → I (autoCancelFenceOnShutdown flt s)
  footer : ∀ {s}, I s → I { s with active := s.active.writeSidxFooter s.sidxCollector }
  sync : ∀ {s} flt, I s → S flt.sync s → I (finalState (syncActiveSegment flt s))
  syncAfterCancel : ∀ {s} fails flt, S fails s → S fails (autoCancelFenceOnShutdown flt s)
  syncAfterFooter : ∀ {s} fails, S fails s →
    S fails { s with active := s.active.writeSidxFooter s.sidxCollector }

namespace ServiceRules

variable {I : WriterCore → Prop} {S : Bool → WriterCore → Prop} {s : WriterCore}

theorem respondWith (h : ServiceRules I S) {α : Type} (respond : Nat)
    (mk : Except StoreError α → Reply) (m : WriterM α) (hm : I (finalState (m s))) :
    I (respondWith respond mk m s) := by
  unfold Store.respondWith
  cases hres : m s with
  | ok a s' =>
      rw [hres] at hm
      exact h.reply _ _ hm
  | error e s' =>
      rw [hres] at hm
      exact h.reply _ _ hm

theorem syncOutcome (h : ServiceRules I S) (flt : Faults) (hs : I s) (hsync : S flt.sync s) :
    I (syncOutcome flt s).2 := by
  have hdone := h.sync flt hs hsync
  unfold Store.syncOutcome
  cases hres : syncActiveSegment flt s with
  | ok u s' =>
      rw [hres] at hdone
      exact hdone
  | error e s' =>
      rw [hres] at hdone
      exact hdone

theorem deferred (h : ServiceRules I S) (d : DeferredReply)
    (syncResult : Except StoreError Unit) (hs : I s) : I (d.send syncResult s) := by
  cases d with
  | none => exact hs
  | sync respond => exact h.reply _ _ hs
  | shutdown respond => exact h.reply _ _ hs
  | beginVisibilityFence token respond =>
      cases syncResult with
      | ok u => exact h.respondWith _ _ _ (h.beginFence token hs)
      | error e => exact h.reply _ _ hs
  | commitVisibilityFence token respond =>
      cases syncResult with
      | ok u => exact h.respondWith _ _ _ (h.commitFence token hs)
      | error e => exact h.reply _ _ hs

theorem settle (h : ServiceRules I S) (flt : Faults) (result : CommandResult) (hs : I s)
    (hsync : result.mustSyncBeforeContinue = true → S flt.sync s) : I (settle flt result s) := by
  unfold Store.settle
  split
  · rename_i hmust
    exact h.deferred _ _ (h.syncOutcome flt hs (hsync hmust))
  · exact hs

/-- A service command keeps what its operations keep, whatever phase it runs in. -/
theorem runCommand (h : ServiceRules I S) (cfg : StoreConfig) (rt : Runtime) (flt : Faults)
    (loop : WriterLoopPhase) {cmd : WriterCommand} (hcmd : cmd.appends = false) (hs : I s)
    (hsync : commandSyncs loop cmd = true → S flt.sync s) :
    I (runCommand cfg rt flt loop cmd s) := by
  cases cmd with
  | append req respond => cases hcmd
  | fenceAppend token req respond => cases hcmd
  | appendBatch nowUs items respond => cases hcmd
  | fenceAppendBatch token nowUs items respond => cases hcmd
  | beginVisibilityFence token respond =>
      cases loop with
      | groupCommitDrain => exact h.settle flt _ hs fun _ => hsync rfl
      | main => exact h.respondWith _ _ _ (h.beginFence token hs)
      | shutdownDrain => exact h.respondWith _ _ _ (h.beginFence token hs)
  | commitVisibilityFence token respond =>
      cases loop with
      | shutdownDrain => exact h.respondWith _ _ _ (h.commitFence token hs)
      | main => exact h.settle flt _ hs fun _ => hsync rfl
      | groupCommitDrain => exact h.settle flt _ hs fun _ => hsync rfl
  | cancelVisibilityFence token respond =>
      have hcancel := h.respondWith respond Reply.unit _ (h.cancelFence flt token hs)
      exact h.settle flt _ hcancel fun hmust => by cases hmust
  | sync respond =>
      cases loop with
      | shutdownDrain => exact h.respondWith _ _ _ (h.sync flt hs (hsync rfl))
      | main => exact h.settle flt _ hs fun _ => hsync rfl
      | groupCommitDrain => exact h.settle flt _ hs fun _ => hsync rfl
  | shutdown respond =>
      cases loop with
      | shutdownDrain => exact h.reply _ _ hs
      | main => exact hs
      | groupCommitDrain => exact h.settle flt _ hs fun _ => hsync rfl

theorem finishShutdown (h : ServiceRules I S) (flt : Faults) (hs : I s) (hsync : S flt.sync s) :
    I (finishShutdown flt s).2 := by
  have hcancel := h.autoCancel flt hs
  have hsync' := h.syncAfterCancel flt.sync flt hsync
  unfold Store.finishShutdown
  dsimp only
  split
  · exact h.syncOutcome flt hcancel hsync'
  · exact h.syncOutcome flt (h.footer hcancel) (h.syncAfterFooter flt.sync hsync')

theorem completeShutdown (h : ServiceRules I S) (respond : Nat) (flt : Faults) (hs : I s)
    (hsync : S flt.sync s) : I (completeShutdown respond flt s) :=
  h.reply _ _ (h.finishShutdown flt hs hsync)

end ServiceRules

end Batpak.Store
