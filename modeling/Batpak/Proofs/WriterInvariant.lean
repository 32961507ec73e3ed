/-
Module: Batpak.Proofs.WriterInvariant
Purpose: The invariant rule of the writer: what every operation of the writer keeps, every
  writer step keeps, whatever phase it runs in and whether it syncs, replies or shuts down.
Trusted boundary: none
Main exports: WriterRules, WriterRules.writerStep
-/
import Batpak.Proofs.CommandRules

namespace Batpak.Store

open Batpak.Util

/-- A command that appends outside of any fence. -/
def WriterCommand.unfenced : WriterCommand → Bool
  | .append .. => true
  | .appendBatch .. => true
  | _ => false

def WriterStep.unfenced : WriterStep → Bool
  | .command _ q => q.command.unfenced
  | _ => false

/-- What has to be shown of an invariant `I`. Unfenced appends may assume `A` of the state
they start from; fenced ones run with the ledger of their fence open. -/
structure WriterRules (cfg : StoreConfig) (rt : Runtime) (I A : WriterCore → Prop) : Prop where
  reply : ∀ {s} respond reply, I s → I (sendReply respond reply s)
  pend : ∀ {s} response, I s →
    I { s with fenceLedger := s.fenceLedger.map fun fence =>
      { fence with responses := fence.responses ++ [response] } }
  append : ∀ {s} flt req, I s → A s → I (finalState (handleAppend cfg rt flt req false s))
  fenceAppend : ∀ {s} flt req, I s → s.fenceLedger.isSome = true →
    I (finalState (handleAppend cfg rt flt req true s))
  appendBatch : ∀ {s} flt nowUs items, I s → A s →
    I (finalState (handleAppendBatch cfg rt flt nowUs items false s))
  fenceAppendBatch : ∀ {s} flt nowUs items, I s → s.fenceLedger.isSome = true →
    I (finalState (handleAppendBatch cfg rt flt nowUs items true s))
  beginFence : ∀ {s} token, I s → I (finalState (beginVisibilityFence token s))
  commitFence : ∀ {s} token, I s → I (finalState (commitVisibilityFence token s))
  cancelFence : ∀ {s} flt token, I s → I (finalState (cancelVisibilityFence flt token s))
  autoCancel : ∀ {s} flt, I s → I (autoCancelFenceOnShutdown flt s)
  footer : ∀ {s}, I s → I { s with active := s.active.writeSidxFooter s.sidxCollector }
  sync : ∀ {s} flt, I s → I (finalState (syncActiveSegment flt s))

namespace WriterRules

variable {cfg : StoreConfig} {rt : Runtime} {I A : WriterCore → Prop} {s : WriterCore}

/-- The rules of the service commands: a sync is always fine. -/
theorem service (h : WriterRules cfg rt I A) : ServiceRules I fun _ _ => True where
  reply := h.reply
  beginFence := h.beginFence
  commitFence := h.commitFence
  cancelFence := h.cancelFence
  autoCancel := h.autoCancel
  footer := h.footer
  sync flt hs _ := h.sync flt hs
  syncAfterCancel _ _ _ := trivial
  syncAfterFooter _ _ := trivial

/-- The rules under which only unfenced appends are guarded. -/
theorem commands (h : WriterRules cfg rt I A) :
    CommandRules cfg rt I fun s _ cmd => cmd.unfenced = true → A s where
  service := h.service
  pend := h.pend
  append flt req _ hs hcmd := h.append flt req hs (hcmd rfl)
  fenceAppend flt _ req _ hs _ hopen := h.fenceAppend flt req hs hopen
  appendBatch flt nowUs items _ hs hcmd := h.appendBatch flt nowUs items hs (hcmd rfl)
  fenceAppendBatch flt _ nowUs items _ hs _ hopen := h.fenceAppendBatch flt nowUs items hs hopen

theorem runCommand (h : WriterRules cfg rt I A) (flt : Faults) (phase : WriterLoopPhase)
    (cmd : WriterCommand) (hs : I s) (hcmd : cmd.unfenced = true → A s) :
    I (runCommand cfg rt flt phase cmd s) :=
  h.commands.runCommand flt phase cmd hs fun _ => hcmd

/-- Every writer step keeps what its operations keep. -/
theorem writerStep (h : WriterRules cfg rt I A) (step : WriterStep) (hs : I s)
    (hstep : step.unfenced = true → A s) : I (writerStep cfg rt s step) := by
  apply h.commands.writerStep step hs
  cases step with
  | command phase q => exact fun _ => hstep
  | periodicSync fails => trivial
  | completeShutdown respond flt => trivial

/-- Two invariants are kept together. -/
theorem and {J : WriterCore → Prop} (h : WriterRules cfg rt I A) (h' : WriterRules cfg rt J A) :
    WriterRules cfg rt (fun s => I s ∧ J s) A where
  reply respond reply hs := ⟨h.reply respond reply hs.1, h'.reply respond reply hs.2⟩
  pend response hs := ⟨h.pend response hs.1, h'.pend response hs.2⟩
  append flt req hs ha := ⟨h.append flt req hs.1 ha, h'.append flt req hs.2 ha⟩
  fenceAppend flt req hs ho := ⟨h.fenceAppend flt req hs.1 ho, h'.fenceAppend flt req hs.2 ho⟩
  appendBatch flt nowUs items hs ha :=
    ⟨h.appendBatch flt nowUs items hs.1 ha, h'.appendBatch flt nowUs items hs.2 ha⟩
  fenceAppendBatch flt nowUs items hs ho :=
    ⟨h.fenceAppendBatch flt nowUs items hs.1 ho, h'.fenceAppendBatch flt nowUs items hs.2 ho⟩
  beginFence token hs := ⟨h.beginFence token hs.1, h'.beginFence token hs.2⟩
  commitFence token hs := ⟨h.commitFence token hs.1, h'.commitFence token hs.2⟩
  cancelFence flt token hs := ⟨h.cancelFence flt token hs.1, h'.cancelFence flt token hs.2⟩
  autoCancel flt hs := ⟨h.autoCancel flt hs.1, h'.autoCancel flt hs.2⟩
  footer hs := ⟨h.footer hs.1, h'.footer hs.2⟩
  sync flt hs := ⟨h.sync flt hs.1, h'.sync flt hs.2⟩

/-- What does not depend on the store is kept by it. -/
theorem const (p : Prop) : WriterRules cfg rt (fun _ => p) A where
  reply _ _ hp := hp
  pend _ hp := hp
  append _ _ hp _ := hp
  fenceAppend _ _ hp _ := hp
  appendBatch _ _ _ hp _ := hp
  fenceAppendBatch _ _ _ hp _ := hp
  beginFence _ hp := hp
  commitFence _ hp := hp
  cancelFence _ _ hp := hp
  autoCancel _ hp := hp
  footer hp := hp
  sync _ hp := hp

end WriterRules

end Batpak.Store
