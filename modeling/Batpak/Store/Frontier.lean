/-
Module: Batpak.Store.Frontier
Purpose: An open store as its frontier watermarks see it: the writer thread one phase at a
  time, callers that begin fences, and projections that report what they applied.
Trusted boundary: as for the phases of the writer; a publish advances the gate and the
  watermarks in one step
Main exports: FrontierMachine, FrontierStep
-/
import Batpak.Store.Lifecycle
import Batpak.Store.Projection
import Batpak.Store.WriterPhases

namespace Batpak.Store

structure FrontierMachine where
  machine : WriterMachine
  registry : ProjectionRegistry

/-- What moves the frontier of an open store. A projection reports up to the sequence of the
state it returned, which its caches decide. -/
inductive FrontierStep where
  | beginFence
  | writer (step : MachineStep)
  | project (projectionId entity : String) (relevantKinds : List EventKind)
      (appliedSequence : Option Nat)

/-- The watermarks of the running store. -/
def FrontierMachine.watermark (m : FrontierMachine) : WatermarkState :=
  m.machine.core.watermark

def projectStep (projectionId entity : String) (relevantKinds : List EventKind)
    (appliedSequence : Option Nat) (m : FrontierMachine) : FrontierMachine :=
  match appliedSequence with
  | none => m
  | some sequence =>
      let items := projectionReplayItems m.machine.core.index entity relevantKinds
      let (registry, watermark) :=
        notifyProjectionApplied projectionId sequence items (m.registry, m.watermark)
      ⟨{ m.machine with core := { m.machine.core with watermark := watermark } }, registry⟩

def frontierStep (cfg : StoreConfig) (rt : Runtime) (m : FrontierMachine) :
    FrontierStep → FrontierMachine
  | .beginFence => { m with machine.core := callerBeginFence m.machine.core }
  | .writer step => { m with machine := machineStep cfg rt m.machine step }
  | .project projectionId entity relevantKinds appliedSequence =>
      projectStep projectionId entity relevantKinds appliedSequence m

/-- A store right after its open: the writer is idle and no projection is registered. -/
def FrontierMachine.ofOpened (core : WriterCore) : FrontierMachine :=
  ⟨⟨core, .idle⟩, .new⟩

end Batpak.Store
