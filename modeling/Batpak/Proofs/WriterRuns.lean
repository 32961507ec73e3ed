/-
Module: Batpak.Proofs.WriterRuns
Purpose: The writer loop refines the writer steps: its phases, drains, budgets and periodic
  syncs add no behaviour of their own, however commands arrive and callers begin fences.
Trusted boundary: none
Main exports: loop_refines_writer, loop_clocks_advance
-/
import Batpak.Proofs.CasUniqueness
import Batpak.Proofs.WriterNumbering
import Batpak.Store.LoopMachine

namespace Batpak.Store

open Batpak.Util

variable (cfg : StoreConfig) (rt : Runtime)

/-- A step of the writer, or a caller that begins a fence at the gate. -/
def coreMove (s : WriterCore) : Option WriterStep → WriterCore
  | some step => writerStep cfg rt s step
  | none => { s with index := { s.index with gate := s.index.gate.beginFence.2 } }

def CoreReaches (s s' : WriterCore) : Prop :=
  ∃ moves, run (coreMove cfg rt) s moves = s'

variable {cfg rt} {s s' : WriterCore} {m : LoopMachine}

theorem CoreReaches.refl (s : WriterCore) : CoreReaches cfg rt s s :=
  ⟨[], rfl⟩

theorem CoreReaches.trans {s'' : WriterCore} (h : CoreReaches cfg rt s s')
    (h' : CoreReaches cfg rt s' s'') : CoreReaches cfg rt s s'' := by
  obtain ⟨xs, rfl⟩ := h
  obtain ⟨ys, rfl⟩ := h'
  exact ⟨xs ++ ys, run_append s xs ys⟩

theorem CoreReaches.step (s : WriterCore) (i : WriterStep) :
    CoreReaches cfg rt s (writerStep cfg rt s i) :=
  ⟨[some i], rfl⟩

theorem resume_reaches (flt : Faults) (h : CoreReaches cfg rt s m.core) :
    CoreReaches cfg rt s (m.resume cfg flt).core := by
  unfold LoopMachine.resume periodicSync
  dsimp only
  split
  · exact h.trans (.step m.core (.periodicSync flt.periodicSync))
  · exact h

/-- A shutdown command in the main phase leaves the state to the drain. -/
theorem executeCommand_shutdown {q : QueuedCommand} {respond : Nat}
    (h : (executeCommand cfg rt q.faults .main q.command s).1.shutdownDrainRespond =
      some respond) :
    (executeCommand cfg rt q.faults .main q.command s).2 = s := by
  cases hcmd : q.command <;> rw [hcmd] at h <;>
    simp [executeCommand, CommandResult.immediate, CommandResult.withSync, CommandResult.breakIf,
      underFence] at h ⊢

theorem takeMain_reaches (q : QueuedCommand) (m : LoopMachine) :
    CoreReaches cfg rt m.core (m.takeMain cfg rt q).core := by
  have hstep := @CoreReaches.step cfg rt m.core (.command .main q)
  have hshutdown := @executeCommand_shutdown cfg rt m.core q
  simp only [writerStep, runCommand] at hstep
  unfold LoopMachine.takeMain
  generalize executeCommand cfg rt q.faults .main q.command m.core = executed at *
  obtain ⟨result, core⟩ := executed
  cases hrespond : result.shutdownDrainRespond with
  | some respond =>
      simp only [hrespond]
      cases hshutdown hrespond
      exact .refl m.core
  | none =>
      simp only [hrespond]
      split
      · exact hstep
      · split
        · exact hstep
        · exact resume_reaches q.faults hstep

theorem takeDraining_reaches (drained : Nat) (flt : Faults) (q : QueuedCommand)
    (m : LoopMachine) : CoreReaches cfg rt m.core (m.takeDraining cfg rt drained flt q).core := by
  have hstep := @CoreReaches.step cfg rt m.core (.command .groupCommitDrain q)
  unfold LoopMachine.takeDraining stepCommand
  dsimp only
  split
  · exact hstep
  · split
    · exact resume_reaches flt hstep
    · exact hstep

/-- One move of the loop is a run of writer steps. -/
theorem next_reaches (m : LoopMachine) : CoreReaches cfg rt m.core (m.next cfg rt).core := by
  obtain ⟨core, queue, events, mode, taken⟩ := m
  cases mode with
  | main =>
      cases queue with
      | nil => exact .refl core
      | cons q rest =>
          exact takeMain_reaches q (LoopMachine.pop q rest ⟨core, q :: rest, events, .main, taken⟩)
  | draining drained flt =>
      cases queue with
      | nil => exact resume_reaches flt (.refl core)
      | cons q rest =>
          simp only [LoopMachine.next]
          split
          · exact takeDraining_reaches drained flt q
              (LoopMachine.pop q rest ⟨core, q :: rest, events, .draining drained flt, taken⟩)
          · exact resume_reaches flt (.refl core)
  | shuttingDown respond flt drained =>
      cases queue with
      | nil => exact .step core (.completeShutdown respond flt)
      | cons q rest =>
          simp only [LoopMachine.next]
          split
          · exact .step core (.command .shutdownDrain q)
          · exact .step core (.completeShutdown respond flt)
  | exited => exact .refl core

theorem loopStep_reaches (m : LoopMachine) (step : LoopStep) :
    CoreReaches cfg rt m.core (loopStep cfg rt m step).core := by
  cases step with
  | enqueue q => exact .refl m.core
  | beginFence => exact ⟨[none], rfl⟩
  | next => exact next_reaches m

theorem loopRun_reaches (steps : List LoopStep) (m : LoopMachine) :
    CoreReaches cfg rt m.core (run (loopStep cfg rt) m steps).core := by
  induction steps generalizing m with
  | nil => exact .refl m.core
  | cons step rest ih => exact (loopStep_reaches m step).trans (ih (loopStep cfg rt m step))

/-- Every run of the loop, from any state and with any arrivals, ends where some run of writer
steps and begun fences ends. -/
theorem loop_refines_writer (cfg : StoreConfig) (rt : Runtime) (steps : List LoopStep)
    (m : LoopMachine) :
    ∃ moves, run (coreMove cfg rt) m.core moves = (run (loopStep cfg rt) m steps).core :=
  loopRun_reaches steps m

/-- What writer steps and begun fences keep, the loop keeps. -/
theorem loop_invariant {I : WriterCore → Prop} (hmove : ∀ s move, I s → I (coreMove cfg rt s move))
    (steps : List LoopStep) (h : I m.core) : I (run (loopStep cfg rt) m steps).core := by
  obtain ⟨moves, hmoves⟩ := @loopRun_reaches cfg rt steps m
  rw [← hmoves]
  exact run_invariant_always hmove moves m.core h

/-- No run of the loop takes the clock of a lane back. -/
theorem loop_clocks_advance (cfg : StoreConfig) (rt : Runtime) (steps : List LoopStep)
    (m : LoopMachine) :
    ClocksAdvance m.core.index.latest (run (loopStep cfg rt) m steps).core.index.latest := by
  apply loop_invariant (I := fun s => ClocksAdvance m.core.index.latest s.index.latest)
  · intro s move h
    cases move with
    | some step => exact h.trans (writerStep_clocksAdvance cfg rt s step)
    | none => exact h
  · exact .refl _

/-- From a new store on, the loop gives no event another sequence than it was written with,
neither in the index nor in a footer, whatever fails. -/
theorem loop_keeps_numbers (cfg : StoreConfig) (rt : Runtime) (steps : List LoopStep)
    (retention : IdempotencyRetention) (overflow : OverflowPolicy)
    (ranges : Option CancelledVisibilityRanges) (segmentId : Nat) :
    Numbered (run (loopStep cfg rt)
      (.start (.spawn cfg (.new retention overflow) [] ranges segmentId)) steps).core := by
  apply loop_invariant
  · intro s move h
    cases move with
    | some step => exact (writerRules_numbered cfg rt).writerStep step h fun _ => trivial
    | none =>
        have hkeeps : s.index.gate.allocated ≤ s.index.gate.beginFence.2.allocated := by simp
        exact h.transfer rfl hkeeps rfl rfl rfl
  · constructor
    · simp [LoopMachine.start, WriterCore.spawn, StoreIndex.new, EntriesHonest]
    · simp [LoopMachine.start, WriterCore.spawn, WriterCore.segments, Segment.create,
        FootersHonest]
    · simp [LoopMachine.start, WriterCore.spawn, RowsHonest]

end Batpak.Store
