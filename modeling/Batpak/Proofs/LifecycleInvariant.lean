/-
Module: Batpak.Proofs.LifecycleInvariant
Purpose: The invariant rule of a store's whole life: operations on a running store, closes,
  crashes and opens.
Trusted boundary: none
Main exports: LifecycleGuards, LifecycleRules
-/
import Batpak.Proofs.WriterInvariant
import Batpak.Store.Lifecycle

namespace Batpak.Store

open Batpak.Util

/-- What the steps of a life may assume of the state they start from and of their own
inputs. A compaction is judged on the store as its own sync leaves it. -/
structure LifeGuards where
  command : CommandGuard
  compact : WriterCore → CompactionStrategy → Prop
  close : WriterCore → CloseInputs → Prop
  crash : WriterCore → Nat → Nat → Prop
  reopen : List Segment → Option CancelledVisibilityRanges → SideFiles → FenceHistory →
    OpenInputs → Prop

/-- Whether a step meets its guard. -/
def LifeGuards.Allows (G : LifeGuards) : StoreState → LifecycleStep → Prop
  | .opened core _, .writer step => G.command.Allows core step
  | .opened core _, .compact _ strategy flt =>
      G.compact (syncOutcome { Faults.none with sync := flt.sync } core).2 strategy
  | .opened core _, .close inputs => G.close core inputs
  | .opened core _, .crash kept torn => G.crash core kept torn
  | .closed segments ranges side fences, .reopen inputs =>
      G.reopen segments ranges side fences inputs
  | _, _ => True

/-- A property of what is on disk between two runs. -/
abbrev DiskProp :=
  List Segment → Option CancelledVisibilityRanges → SideFiles → FenceHistory → Prop

/-- What has to be shown of an invariant `O` of running stores and `D` of closed ones, appends
and opens apart. -/
structure StoreRules (cfg : LifecycleConfig) (rt : Runtime)
    (O : WriterCore → SideFiles → Prop) (D : DiskProp)
    (compacts : WriterCore → CompactionStrategy → Prop)
    (closes : WriterCore → CloseInputs → Prop) (crashes : WriterCore → Nat → Nat → Prop) :
    Prop where
  watermark : ∀ {core side} watermark, O core side → O { core with watermark := watermark } side
  beginFence : ∀ {core side}, O core side → O (callerBeginFence core) side
  swap : ∀ {core side strategy merged fresh}, O core side → compacts core strategy →
    compactionResult cfg rt strategy core = .ok (merged, fresh) →
      O (swapCompacted core merged fresh) side
  sweep : ∀ {core side}, O core side → O (sweepIdemp core) side
  flush : ∀ {core side}, O core side → O core { side with idemp := some core.index.idemp.map }
  snapshot : ∀ {core side}, O core side →
    O core { side with snapshot := some (.take rt core.index core.segments) }
  closed : ∀ {core side inputs}, O core side → closes core inputs →
    ∀ side', O (shutdownWriter cfg.store rt inputs core).2 side' →
      D (shutdownWriter cfg.store rt inputs core).2.segments
        (shutdownWriter cfg.store rt inputs core).2.hiddenRanges side'
        (shutdownWriter cfg.store rt inputs core).2.fences
  crash : ∀ {core side kept torn}, O core side → crashes core kept torn →
    D (core.sealed ++ [cutSegment kept torn core.active]) core.hiddenRanges side core.fences
  abandon : ∀ {segments ranges side fences index inputs e core},
    completeOpen cfg.store rt inputs (spawnStore cfg index segments ranges fences) =
      .error e core → O core side → D core.segments core.hiddenRanges side core.fences

/-- The rules of a store, under guards on commands and opens. -/
structure LifeRules (cfg : LifecycleConfig) (rt : Runtime)
    (O : WriterCore → SideFiles → Prop) (D : DiskProp) (G : LifeGuards) : Prop extends
    StoreRules cfg rt O D G.compact G.close G.crash where
  writer : ∀ side, CommandRules cfg.store rt (fun core => O core side) G.command
  spawn : ∀ {segments ranges side fences index inputs}, D segments ranges side fences →
    G.reopen segments ranges side fences inputs →
    openIndex rt cfg.retention cfg.overflow side.snapshot side.idemp ranges segments = .ok index →
      O (spawnStore cfg index segments ranges fences) side ∧
        G.command.AllowsOpen (spawnStore cfg index segments ranges fences) inputs

/-- The invariant of a store, open or not. -/
def StoreHolds (O : WriterCore → SideFiles → Prop) (D : DiskProp) : StoreState → Prop
  | .opened core side => O core side
  | .closed segments ranges side fences => D segments ranges side fences

namespace LifeRules

variable {cfg : LifecycleConfig} {rt : Runtime} {O : WriterCore → SideFiles → Prop} {D : DiskProp}
  {G : LifeGuards} {core : WriterCore} {side : SideFiles}

theorem writeSnapshot (h : LifeRules cfg rt O D G) (fails : Bool) (hcore : O core side) :
    O core (writeSnapshot cfg rt fails core side) := by
  unfold Store.writeSnapshot
  split
  · exact h.snapshot hcore
  · exact hcore

theorem compactStore (h : LifeRules cfg rt O D G) (minSegments : Nat)
    (strategy : CompactionStrategy) (flt : CompactFaults) (hcore : O core side)
    (hguard : G.compact (syncOutcome { Faults.none with sync := flt.sync } core).2 strategy) :
    O (compactStore cfg rt minSegments strategy flt core side).1
      (compactStore cfg rt minSegments strategy flt core side).2 := by
  have hsynced :=
    (h.writer side).service.syncOutcome { Faults.none with sync := flt.sync } hcore trivial
  unfold Store.compactStore
  generalize syncOutcome { Faults.none with sync := flt.sync } core = outcome at hguard hsynced
  obtain ⟨synced, core'⟩ := outcome
  dsimp only at hguard hsynced ⊢
  split
  · exact hsynced
  · split
    · exact hsynced
    · split
      · exact hsynced
      · rename_i merged fresh hresult
        have hswapped := h.sweep (h.swap hsynced hguard hresult)
        split
        · exact hswapped
        · exact h.writeSnapshot flt.artifacts (h.flush hswapped)

theorem shutdownWriter (h : LifeRules cfg rt O D G) (inputs : CloseInputs)
    (hcore : O core side) : O (shutdownWriter cfg.store rt inputs core).2 side := by
  unfold Store.shutdownWriter
  split
  · exact (h.writer side).runCommand inputs.faults .groupCommitDrain (.shutdown inputs.respond)
      hcore fun happends => by cases happends
  · exact (h.writer side).service.completeShutdown inputs.respond inputs.faults hcore trivial

theorem closeStore (h : LifeRules cfg rt O D G) (inputs : CloseInputs) (hcore : O core side)
    (hguard : G.close core inputs) : StoreHolds O D (closeStore cfg rt inputs core side) := by
  have hshut := h.shutdownWriter inputs hcore
  have hclosed := h.closed hcore hguard
  unfold Store.closeStore
  generalize Store.shutdownWriter cfg.store rt inputs core = result at hshut hclosed
  obtain ⟨answer, core'⟩ := result
  cases answer with
  | error e => exact hclosed side hshut
  | ok u =>
      dsimp only at hshut hclosed ⊢
      split
      · exact hclosed side hshut
      · exact hclosed _ (h.writeSnapshot inputs.snapshotFails (h.flush hshut))

theorem openStore (h : LifeRules cfg rt O D G) (inputs : OpenInputs)
    {segments : List Segment} {ranges : Option CancelledVisibilityRanges} {fences : FenceHistory}
    (hdisk : D segments ranges side fences) (hguard : G.reopen segments ranges side fences inputs) :
    StoreHolds O D (openStore cfg rt inputs segments ranges side fences) := by
  unfold Store.openStore
  cases hindex : openIndex rt cfg.retention cfg.overflow side.snapshot side.idemp ranges
      segments with
  | error e => exact hdisk
  | ok index =>
      obtain ⟨hspawned, hready⟩ := h.spawn hdisk hguard hindex
      have hopened := (h.writer side).completeOpen inputs h.watermark hspawned hready
      dsimp only
      split
      · rename_i core hcore
        rw [hcore] at hopened
        exact hopened
      · rename_i e core hcore
        rw [hcore] at hopened
        exact h.abandon hcore hopened

/-- Every step that meets its guard keeps the invariant. -/
theorem lifecycleStep (h : LifeRules cfg rt O D G) (st : StoreState) (step : LifecycleStep)
    (hst : StoreHolds O D st) (hguard : G.Allows st step) :
    StoreHolds O D (lifecycleStep cfg rt st step) := by
  cases st with
  | opened core side =>
      cases step with
      | beginFence => exact h.beginFence hst
      | writer step => exact (h.writer side).writerStep step hst hguard
      | compact minSegments strategy flt => exact h.compactStore minSegments strategy flt hst hguard
      | close inputs => exact h.closeStore inputs hst hguard
      | crash kept torn => exact h.crash hst hguard
      | reopen inputs => exact hst
  | closed segments ranges side fences =>
      cases step with
      | reopen inputs => exact h.openStore inputs hst hguard
      | beginFence => exact hst
      | writer step => exact hst
      | compact minSegments strategy flt => exact hst
      | close inputs => exact hst
      | crash kept torn => exact hst

end LifeRules

/-! ### Guards on unfenced appends -/

/-- Guards that look at the state a step starts from only, and at unfenced appends only. -/
structure LifecycleGuards where
  append : WriterCore → Prop
  compact : WriterCore → CompactionStrategy → Prop
  close : WriterCore → CloseInputs → Prop
  crash : WriterCore → Nat → Nat → Prop
  reopen : List Segment → Option CancelledVisibilityRanges → SideFiles → Prop

/-- Whether a step meets its guard. -/
def LifecycleGuards.Allows (G : LifecycleGuards) : StoreState → LifecycleStep → Prop
  | .opened core _, .writer step => step.unfenced = true → G.append core
  | .opened core _, .compact _ strategy flt =>
      G.compact (syncOutcome { Faults.none with sync := flt.sync } core).2 strategy
  | .opened core _, .close inputs => G.close core inputs
  | .opened core _, .crash kept torn => G.crash core kept torn
  | .closed segments ranges side _, .reopen _ => G.reopen segments ranges side
  | _, _ => True

/-- The rules of a store, under guards that look at the state only. -/
structure LifecycleRules (cfg : LifecycleConfig) (rt : Runtime)
    (O : WriterCore → SideFiles → Prop) (D : DiskProp) (G : LifecycleGuards) : Prop extends
    StoreRules cfg rt O D G.compact G.close G.crash where
  writer : ∀ side, WriterRules cfg.store rt (fun core => O core side) G.append
  spawn : ∀ {segments ranges side fences index}, D segments ranges side fences →
    G.reopen segments ranges side →
    openIndex rt cfg.retention cfg.overflow side.snapshot side.idemp ranges segments = .ok index →
      O (spawnStore cfg index segments ranges fences) side ∧
        G.append (spawnStore cfg index segments ranges fences)

/-- The guards as they are seen by each command and by each open. -/
def LifecycleGuards.life (G : LifecycleGuards) : LifeGuards where
  command core _ cmd := cmd.unfenced = true → G.append core
  compact := G.compact
  close := G.close
  crash := G.crash
  reopen segments ranges side _ _ := G.reopen segments ranges side

namespace LifecycleRules

variable {cfg : LifecycleConfig} {rt : Runtime} {O : WriterCore → SideFiles → Prop} {D : DiskProp}
  {G : LifecycleGuards}

theorem life (h : LifecycleRules cfg rt O D G) : LifeRules cfg rt O D G.life where
  toStoreRules := h.toStoreRules
  writer side := (h.writer side).commands
  spawn hdisk hguard hindex := by
    obtain ⟨hspawned, hready⟩ := h.spawn hdisk hguard hindex
    exact ⟨hspawned, fun _ _ _ => hready⟩

/-- Every step that meets its guard keeps the invariant. -/
theorem lifecycleStep (h : LifecycleRules cfg rt O D G) (st : StoreState) (step : LifecycleStep)
    (hst : StoreHolds O D st) (hguard : G.Allows st step) :
    StoreHolds O D (lifecycleStep cfg rt st step) := by
  apply h.life.lifecycleStep st step hst
  cases st with
  | opened core side =>
      cases step with
      | writer step =>
          cases step with
          | command phase q => exact fun _ => hguard
          | periodicSync fails => trivial
          | completeShutdown respond flt => trivial
      | beginFence | compact | close | crash | reopen => exact hguard
  | closed segments ranges side fences =>
      cases step with
      | reopen inputs => exact hguard
      | beginFence | writer | compact | close | crash => trivial

end LifecycleRules

end Batpak.Store
