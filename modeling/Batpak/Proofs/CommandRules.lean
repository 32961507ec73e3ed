/-
Module: Batpak.Proofs.CommandRules
Purpose: The invariant rule of the writer when the appends may assume something of the state
  they start from, of their own input and of the platform calls that fail under them.
Trusted boundary: none
Main exports: CommandRules.writerStep, CommandRules.completeOpen
-/
import Batpak.Proofs.ServiceRules
import Batpak.Proofs.WriterEffects
import Batpak.Store.Open

namespace Batpak.Store

open Batpak.Util

/-- What an append, single or batch, fenced or not, may assume when it is run. -/
abbrev CommandGuard :=
  WriterCore → Faults → WriterCommand → Prop

/-- Whether a writer step meets the guard; only appends are guarded. -/
def CommandGuard.Allows (C : CommandGuard) (s : WriterCore) : WriterStep → Prop
  | .command _ q => q.command.appends = true → C s q.faults q.command
  | .periodicSync _ => True
  | .completeShutdown .. => True

/-- Whether the open event of an open meets the guard. -/
def CommandGuard.AllowsOpen (C : CommandGuard) (s : WriterCore) (inputs : OpenInputs) : Prop :=
  ∀ lastClose, lastCloseHlc s.index = .ok lastClose →
    C s inputs.faults (.append (openCompletedRequest inputs.eventId inputs.report
      (openCandidate (highestHlc s.index.allEntries) lastClose inputs.nowUs)) 0)

/-- What has to be shown of an invariant `I` under the guard `C`. Fenced appends run with
the ledger of their fence open. -/
structure CommandRules (cfg : StoreConfig) (rt : Runtime) (I : WriterCore → Prop)
    (C : CommandGuard) : Prop where
  service : ServiceRules I fun _ _ => True
  pend : ∀ {s} response, I s →
    I { s with fenceLedger := s.fenceLedger.map fun fence =>
      { fence with responses := fence.responses ++ [response] } }
  append : ∀ {s} flt req respond, I s → C s flt (.append req respond) →
    I (finalState (handleAppend cfg rt flt req false s))
  fenceAppend : ∀ {s} flt token req respond, I s → C s flt (.fenceAppend token req respond) →
    s.fenceLedger.isSome = true → I (finalState (handleAppend cfg rt flt req true s))
  appendBatch : ∀ {s} flt nowUs items respond, I s → C s flt (.appendBatch nowUs items respond) →
    I (finalState (handleAppendBatch cfg rt flt nowUs items false s))
  fenceAppendBatch : ∀ {s} flt token nowUs items respond, I s →
    C s flt (.fenceAppendBatch token nowUs items respond) → s.fenceLedger.isSome = true →
    I (finalState (handleAppendBatch cfg rt flt nowUs items true s))

namespace CommandRules

variable {cfg : StoreConfig} {rt : Runtime} {I : WriterCore → Prop} {C : CommandGuard}
  {s : WriterCore}

theorem underFence (h : CommandRules cfg rt I C) {α : Type} (token respond : Nat)
    (mk : Except StoreError α → Reply) (pending : α → PendingFenceResponse) (m : WriterM α)
    (hs : I s) (hm : s.fenceLedger.isSome = true → I (finalState (m s))) :
    I (underFence token respond mk pending m s).2 := by
  unfold Store.underFence
  split
  · rename_i htoken
    have hopen : s.fenceLedger.isSome = true := by
      cases hledger : s.fenceLedger with
      | none => simp [hledger] at htoken
      | some fence => rfl
    have hm := hm hopen
    cases hres : m s with
    | ok a s' =>
        rw [hres] at hm
        exact h.pend _ hm
    | error e s' =>
        rw [hres] at hm
        exact h.service.reply _ _ hm
  · exact h.service.reply _ _ hs

theorem runCommand (h : CommandRules cfg rt I C) (flt : Faults) (phase : WriterLoopPhase)
    (cmd : WriterCommand) (hs : I s) (hcmd : cmd.appends = true → C s flt cmd) :
    I (runCommand cfg rt flt phase cmd s) := by
  have hother : cmd.appends = false → I (Store.runCommand cfg rt flt phase cmd s) :=
    fun hcmd => h.service.runCommand cfg rt flt phase hcmd hs fun _ => trivial
  cases cmd with
  | append req respond =>
      exact h.service.respondWith _ _ _ (h.append flt req respond hs (hcmd rfl))
  | fenceAppend token req respond =>
      exact h.underFence _ _ _ _ _ hs (h.fenceAppend flt token req respond hs (hcmd rfl))
  | appendBatch nowUs items respond =>
      exact h.service.respondWith _ _ _ (h.appendBatch flt nowUs items respond hs (hcmd rfl))
  | fenceAppendBatch token nowUs items respond =>
      exact h.underFence _ _ _ _ _ hs
        (h.fenceAppendBatch flt token nowUs items respond hs (hcmd rfl))
  | beginVisibilityFence | commitVisibilityFence | cancelVisibilityFence | sync | shutdown =>
      exact hother rfl

/-- Every writer step that meets the guard keeps what its operations keep. -/
theorem writerStep (h : CommandRules cfg rt I C) (step : WriterStep) (hs : I s)
    (hstep : C.Allows s step) : I (writerStep cfg rt s step) := by
  cases step with
  | command phase q => exact h.runCommand q.faults phase q.command hs hstep
  | periodicSync fails => exact h.service.syncOutcome _ hs trivial
  | completeShutdown respond flt => exact h.service.completeShutdown respond flt hs trivial

/-- The end of an open: an unfenced append, a sync, and new watermarks. -/
theorem completeOpen (h : CommandRules cfg rt I C) (inputs : OpenInputs)
    (hwatermark : ∀ {s} watermark, I s → I { s with watermark := watermark }) (hs : I s)
    (hready : C.AllowsOpen s inputs) : I (finalState (completeOpen cfg rt inputs s)) := by
  have htriple : Triple (fun s' => s' = s) (Store.completeOpen cfg rt inputs) (fun _ => I) I := by
    have hpure : ∀ {α : Type} (r : Except StoreError α),
        Triple (fun s' => s' = s) (liftExcept r) (fun a s' => r = .ok a ∧ s' = s) I := by
      intro α r
      refine Triple.onError (liftExcept_triple (I := fun s' => s' = s) r) ?_
      rintro s' rfl
      exact hs
    apply Triple.bind (Q := fun t s' => t = s ∧ s' = s) (Triple.get fun s' hs' => ⟨hs', hs'⟩)
    rintro s₁ s' ⟨rfl, rfl⟩
    apply Triple.bind (hpure _) _ s' rfl
    rintro lastClose s' ⟨hclose, rfl⟩
    apply Triple.bind (hpure _) _ s' rfl
    rintro u s' ⟨-, rfl⟩
    apply Triple.bind (Q := fun _ => I) (P := fun s'' => s'' = s') _ _ s' rfl
    · rintro s'' rfl
      exact Post.of_finalState (h.append inputs.faults _ 0 hs (hready lastClose hclose))
    intro receipt
    apply Triple.bind (Triple.get fun s' hs' => hs')
    intro s₂
    apply Keeps.bind (liftExcept_keeps _)
    intro entry
    apply Keeps.bind (liftExcept_keeps _)
    intro lastClose'
    apply Keeps.bind (liftExcept_keeps _)
    intro v
    apply Keeps.bind
    · exact fun s' hs' => Post.of_finalState (h.service.sync inputs.faults hs' trivial)
    intro w
    exact Triple.modify fun s' hs' => hwatermark _ hs'
  exact (htriple s rfl).finalState

end CommandRules

end Batpak.Store
