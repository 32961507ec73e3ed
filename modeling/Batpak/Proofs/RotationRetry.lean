/-
Module: Batpak.Proofs.RotationRetry
Purpose: What a failed rotation leaves for the next append.
Trusted boundary: none (fully proved)
Main exports: Retries, rotation_failure_retryable_iff
-/
import Batpak.Proofs.SidxAgreement
import Batpak.Store.Rotation

namespace Batpak.Store

open Batpak.Util

variable {log : List (Frame × DiskPos)} {w : RotatingWriter} {receipt : AppendReceipt}
variable {s s' : WriterCore} {req : AppendRequest} {fenced : Bool} {cfg : StoreConfig}

/-! ### A rotation that does not happen -/

section Blocked

variable {rt : Runtime} {flt : Faults}

/-- The new file cannot be created or the old one cannot be synced. -/
def Faults.blocksRotation (flt : Faults) : Bool :=
  flt.rotateCreate || flt.rotateSync

theorem maybeRotateSegment_blocked (hfull : s.active.needsRotation cfg.segmentMaxBytes = true)
    (hblocked : flt.blocksRotation = true) : ∃ e, maybeRotateSegment cfg flt s = .error e s := by
  unfold Faults.blocksRotation at hblocked
  unfold maybeRotateSegment
  rw [if_pos hfull]
  cases hcreate : flt.rotateCreate with
  | true => exact ⟨_, rfl⟩
  | false =>
      rw [hcreate, Bool.false_or] at hblocked
      rw [hblocked]
      exact ⟨_, rfl⟩

theorem maybeRotateSegment_blocked_triple {d : DiskView}
    (hfull : d.active.needsRotation cfg.segmentMaxBytes = true)
    (hblocked : flt.blocksRotation = true) :
    Triple (fun s => s.disk = d) (maybeRotateSegment cfg flt) (fun _ _ => False)
      (fun s => s.disk = d) := by
  rintro s rfl
  obtain ⟨e, he⟩ := @maybeRotateSegment_blocked s cfg flt hfull hblocked
  rw [he]
  exact rfl

/-- From a state that cannot be reached everything follows. -/
theorem triple_unreachable {α : Type} {m : WriterM α} {Q : α → WriterCore → Prop}
    {E : WriterCore → Prop} : Triple (fun _ => False) m Q E :=
  fun _ h => h.elim

theorem prepareAppend_blocked {d : DiskView} (req : AppendRequest) (latest : Option IndexEntry)
    (fenced : Bool) (hfull : d.active.needsRotation cfg.segmentMaxBytes = true)
    (hblocked : flt.blocksRotation = true) :
    Triple (fun s => s.disk = d) (prepareAppend cfg rt flt req latest fenced) (fun _ _ => False)
      (fun s => s.disk = d) := by
  have haccept : Keeps (fun s => s.disk = d) (acceptAppend rt req latest fenced) := by
    intro s hs
    unfold acceptAppend
    split
    · exact hs
    · exact hs
  unfold prepareAppend
  apply Triple.bind haccept
  intro st
  apply Triple.bind (liftExcept_keeps _)
  intro length
  apply Triple.bind (maybeRotateSegment_blocked_triple hfull hblocked)
  intro rotated
  exact triple_unreachable

theorem prepareBatch_blocked {d : DiskView} (nowUs : Int) (items : List BatchAppendItem)
    (firstSeq : Nat) (fenced : Bool) (hfull : d.active.needsRotation cfg.segmentMaxBytes = true)
    (hblocked : flt.blocksRotation = true) :
    Triple (fun s => s.disk = d) (prepareBatch cfg rt flt nowUs items firstSeq fenced)
      (fun _ _ => False) (fun s => s.disk = d) := by
  have hbegin : Triple (fun s => s.disk = d)
      (writeBatchMarkerFrame cfg rt flt 0 firstSeq .systemBatchBegin items.length nowUs 0 true)
      (fun _ _ => False) (fun s => s.disk = d) := by
    apply batchFailedAt_triple
    apply Triple.bind (liftExcept_keeps _)
    intro nowMs
    apply Triple.bind (liftExcept_keeps _)
    intro length
    apply Triple.bind (maybeRotateSegment_blocked_triple hfull hblocked)
    intro rotated
    exact triple_unreachable
  unfold prepareBatch
  apply Triple.bind (batchFailedAt_triple 0 (liftExcept_keeps _))
  intro nowMs
  apply Triple.bind (Triple.get fun s hs => hs)
  intro s
  apply Triple.bind (precomputeBatchItems_disk rt _ items [] [])
  intro staged
  apply Triple.bind (liftExcept_keeps _)
  intro u
  apply Triple.bind hbegin
  intro offset
  exact triple_unreachable

/-- A computation that cannot return fails. -/
theorem fails_of_unreachable {α : Type} {m : WriterM α} {P E : WriterCore → Prop}
    (h : Triple P m (fun _ _ => False) E) (hs : P s) : ∃ e s', m s = .error e s' ∧ E s' := by
  have hpost := h s hs
  cases hm : m s with
  | ok a s' =>
      rw [hm] at hpost
      exact hpost.elim
  | error e s' =>
      rw [hm] at hpost
      exact ⟨e, s', rfl, hpost⟩

/-- The append failed with the files, the entries and the heads as they were. -/
structure FailedUnchanged {α : Type} (s : WriterCore) (r : EStateM.Result StoreError WriterCore α) :
    Prop where
  failed : ∃ e, r = .error e (finalState r)
  disk : (finalState r).disk = s.disk
  inserted : (finalState r).index.inserted = s.index.inserted
  latest : (finalState r).index.latest = s.index.latest

theorem commitAppend_blocked (req : AppendRequest) (latest : Option IndexEntry) (fenced : Bool)
    (hfull : s.active.needsRotation cfg.segmentMaxBytes = true)
    (hblocked : flt.blocksRotation = true) :
    FailedUnchanged s (commitAppend cfg rt flt req latest fenced s) := by
  obtain ⟨e, s', hprepare, hdisk⟩ := fails_of_unreachable
    (@prepareAppend_blocked cfg rt flt s.disk req latest fenced hfull hblocked) rfl
  have honly := @prepareAppend_triple s cfg rt flt req latest fenced s rfl
  rw [hprepare] at honly
  have hindex : s'.index = s.index := honly.index
  have hrun : commitAppend cfg rt flt req latest fenced s = .error e s' :=
    bind_eq_error.mpr (.inl hprepare)
  rw [hrun]
  refine ⟨⟨e, rfl⟩, hdisk, ?_, ?_⟩
  · exact congrArg StoreIndex.inserted hindex
  · exact congrArg StoreIndex.latest hindex

theorem handlePreparedBatch_blocked (nowUs : Int) (items : List BatchAppendItem) (fenced : Bool)
    (hfull : s.active.needsRotation cfg.segmentMaxBytes = true)
    (hblocked : flt.blocksRotation = true) :
    FailedUnchanged s (handlePreparedBatch cfg rt flt nowUs items fenced s) := by
  have hreserve : reserveSequences items.length s =
      .ok s.index.globalSequence (reserved items.length s) := rfl
  obtain ⟨e, s', hprepare, hdisk⟩ := @fails_of_unreachable (reserved items.length s) _ _ _ _
    (@prepareBatch_blocked cfg rt flt s.disk nowUs items s.index.globalSequence fenced hfull
      hblocked) rfl
  have honly := @prepareBatch_triple (reserved items.length s) cfg rt flt nowUs items
    s.index.globalSequence fenced (reserved items.length s) (DiskOnly.refl _)
  rw [hprepare] at honly
  have hindex : s'.index = (reserved items.length s).index := honly.index
  have hrun : handlePreparedBatch cfg rt flt nowUs items fenced s = .error e s' := by
    unfold handlePreparedBatch
    rw [bind_of_ok hreserve]
    exact bind_eq_error.mpr (.inl hprepare)
  rw [hrun]
  refine ⟨⟨e, rfl⟩, hdisk, ?_, ?_⟩
  · change s'.index.inserted = s.index.inserted
    rw [hindex]
    rfl
  · change s'.index.latest = s.index.latest
    rw [hindex]
    rfl

theorem FailedUnchanged.of_quiet {α : Type} {s₀ : WriterCore}
    {r : EStateM.Result StoreError WriterCore α} (h : FailedUnchanged s₀ r)
    (hquiet : Uncommitted 0 s s₀) (hdisk : s₀.disk = s.disk) : FailedUnchanged s r :=
  ⟨h.failed, h.disk.trans hdisk, h.inserted.trans hquiet.inserted, h.latest.trans hquiet.latest⟩

end Blocked

/-! ### Who comes to rotate -/

theorem MayRotate.full {d d' : DiskView} (h : MayRotate cfg d d')
    (hmoved : d'.segmentId ≠ d.segmentId) : d.active.needsRotation cfg.segmentMaxBytes = true := by
  cases h with
  | stay => exact absurd rfl hmoved
  | rotate footerFails full => exact full

theorem AppendEffect.full {rt : Runtime} {flt : Faults}
    (h : AppendEffect cfg rt flt req fenced s s') (hmoved : s'.segmentId ≠ s.segmentId) :
    s.active.needsRotation cfg.segmentMaxBytes = true := by
  cases h with
  | failed disk inserted latest =>
      obtain ⟨d₁, left, hrotated, -, hdisk⟩ := disk
      apply MayRotate.full hrotated
      have hid : s'.segmentId = (d₁.putAll left).segmentId := congrArg DiskView.segmentId hdisk
      rw [(id_putAll _ _).2.1] at hid
      rwa [← hid]
  | committed st pos staged disk inserted latest =>
      obtain ⟨d₁, hrotated, -, hdisk⟩ := disk
      apply MayRotate.full hrotated
      have hid : s'.segmentId = d₁.segmentId := congrArg DiskView.segmentId hdisk
      rwa [← hid]

theorem WrittenBatchDisk.full {rt : Runtime} {firstSeq : Nat} {nowUs : Int}
    {d d' : DiskView} {staged : List StagedCommittedEvent} {places : List DiskPos}
    (h : WrittenBatchDisk cfg rt firstSeq nowUs d staged places d')
    (hmoved : d'.segmentId ≠ d.segmentId) : d.active.needsRotation cfg.segmentMaxBytes = true := by
  obtain ⟨d₁, nowMs, hrotated, -, -, hdisk⟩ := h
  apply MayRotate.full hrotated
  have hid : d'.segmentId = (d₁.putAll (envelope rt firstSeq nowUs nowMs staged)).segmentId := by
    rw [hdisk]
    rfl
  rw [(id_putAll _ _).2.1] at hid
  rwa [← hid]

theorem BatchEffect.full {rt : Runtime} {flt : Faults} {nowUs : Int} {items : List BatchAppendItem}
    (h : BatchEffect cfg rt flt nowUs items fenced s s') (hmoved : s'.segmentId ≠ s.segmentId) :
    s.active.needsRotation cfg.segmentMaxBytes = true := by
  cases h with
  | failed d₁ left rotated leftover disk inserted latest =>
      apply MayRotate.full rotated
      have hid : s'.segmentId = (d₁.putAll left).segmentId := congrArg DiskView.segmentId disk
      rw [(id_putAll _ _).2.1] at hid
      rwa [← hid]
  | unrecorded staged receipts d₁ n batch written disk inserted latest =>
      apply WrittenBatchDisk.full written
      have hid : s'.segmentId = d₁.segmentId := congrArg DiskView.segmentId disk
      rwa [← hid]
  | committed staged receipts d₁ nonempty batch written disk inserted latest =>
      apply WrittenBatchDisk.full written
      have hid : s'.segmentId = d₁.segmentId := congrArg DiskView.segmentId disk
      rwa [← hid]

/-! ### Appends on a directory -/

section Directory

variable {rt : Runtime} {flt : Faults}

theorem FailedUnchanged.map {α β : Type} {s : WriterCore} {m : WriterM α} (f : α → β)
    (h : FailedUnchanged s (m s)) : FailedUnchanged s ((m >>= fun a => pure (f a)) s) := by
  have hfinal := finalState_bind_pure m f s
  obtain ⟨e, he⟩ := h.failed
  have hrun : (m >>= fun a => pure (f a)) s = .error e (finalState (m s)) :=
    bind_eq_error.mpr (.inl he)
  refine ⟨⟨e, ?_⟩, ?_, ?_, ?_⟩
  · rw [hfinal]
    exact hrun
  · rw [hfinal]
    exact h.disk
  · rw [hfinal]
    exact h.inserted
  · rw [hfinal]
    exact h.latest

/-- An append that comes to rotate fails without a change when it cannot. -/
theorem perform_blocked {action : AppendAction} (hattempts : w.attempts cfg rt flt action = true)
    {flt' : Faults} (hblocked : flt'.blocksRotation = true) :
    FailedUnchanged w.core (action.perform cfg rt flt' w.core) := by
  have hmoved : (finalState (action.perform cfg rt flt.rotationFree w.core)).segmentId ≠
      w.core.segmentId := bne_iff_ne.mp hattempts
  have hstill : ∀ s : WriterCore, s.disk = w.core.disk → s.segmentId = w.core.segmentId :=
    fun s hs => congrArg DiskView.segmentId hs
  cases action with
  | single req fenced =>
      apply FailedUnchanged.map fun receipt => [receipt]
      have hfinal : finalState ((AppendAction.single req fenced).perform cfg rt flt.rotationFree
          w.core) = finalState (handleAppend cfg rt flt.rotationFree req fenced w.core) :=
        finalState_bind_pure _ _ _
      rw [hfinal] at hmoved
      have hfull := (handleAppend_effect cfg rt flt.rotationFree req fenced w.core).full hmoved
      rcases handleAppend_prelude rt req fenced w.core with ⟨r, -, hdisk, hrun⟩ |
        ⟨s₀, hquiet, hdisk, hrun⟩
      · rw [hrun] at hmoved
        exact absurd (hstill _ hdisk) hmoved
      · have hactive : s₀.active = w.core.active := congrArg DiskView.active hdisk
        rw [hrun]
        apply (commitAppend_blocked req _ fenced _ hblocked).of_quiet hquiet hdisk
        rwa [hactive]
  | batch nowUs items fenced =>
      change (finalState (handleAppendBatch cfg rt flt.rotationFree nowUs items fenced
        w.core)).segmentId ≠ _ at hmoved
      have hfull :=
        (handleAppendBatch_effect cfg rt flt.rotationFree nowUs items fenced w.core).full hmoved
      change FailedUnchanged w.core (handleAppendBatch cfg rt flt' nowUs items fenced w.core)
      rcases handleAppendBatch_prelude cfg rt nowUs items fenced w.core with
        ⟨r, -, hdisk, hrun⟩ | ⟨s₀, -, -, hquiet, hdisk, hrun⟩
      · rw [hrun] at hmoved
        exact absurd (hstill _ hdisk) hmoved
      · have hactive : s₀.active = w.core.active := congrArg DiskView.active hdisk
        rw [hrun]
        apply (handlePreparedBatch_blocked nowUs items fenced _ hblocked).of_quiet hquiet hdisk
        rwa [hactive]

/-- The directory refuses a rotation that has a fault or finds the next file already there. -/
theorem rotationFaults_blocks {fault : Option RotationFault}
    (h : w.successor = true ∨ fault.isSome = true) :
    (w.rotationFaults fault flt).blocksRotation = true := by
  rcases h with h | h
  · simp [Faults.blocksRotation, RotatingWriter.rotationFaults, h]
  · cases fault with
    | none => cases h
    | some f =>
        cases f with
        | createNew => simp [Faults.blocksRotation, RotatingWriter.rotationFaults]
        | header => simp [Faults.blocksRotation, RotatingWriter.rotationFaults]
        | oldSync => simp [Faults.blocksRotation, RotatingWriter.rotationFaults]

/-- What an append that comes to rotate and cannot leaves of the writer and its directory. -/
structure RotationFailed (w : RotatingWriter) (fault : Option RotationFault)
    (outcome : Except StoreError (List AppendReceipt) × RotatingWriter) : Prop where
  failed : ∃ e, outcome.1 = .error e
  disk : outcome.2.core.disk = w.core.disk
  inserted : outcome.2.core.index.inserted = w.core.index.inserted
  latest : outcome.2.core.index.latest = w.core.index.latest
  successor : outcome.2.successor = (w.successor || fault.any RotationFault.leavesFile)

theorem append_blocked {action : AppendAction} {fault : Option RotationFault}
    (hattempts : w.attempts cfg rt flt action = true)
    (h : w.successor = true ∨ fault.isSome = true) :
    RotationFailed w fault (w.append cfg rt flt fault action) := by
  have hblocked := perform_blocked hattempts (@rotationFaults_blocks w flt fault h)
  obtain ⟨e, he⟩ := hblocked.failed
  generalize hcore : finalState (action.perform cfg rt (w.rotationFaults fault flt) w.core) = core
    at hblocked he
  have happend : w.append cfg rt flt fault action = (.error e, w.leave true fault core) := by
    unfold RotatingWriter.append
    rw [hattempts, he]
  have hsame : core.segmentId = w.core.segmentId := by
    rw [← hcore]
    exact congrArg DiskView.segmentId hblocked.disk
  rw [happend]
  refine ⟨⟨e, rfl⟩, ?_, ?_, ?_, ?_⟩
  · rw [← hcore]
    exact hblocked.disk
  · rw [← hcore]
    exact hblocked.inserted
  · rw [← hcore]
    exact hblocked.latest
  · simp [RotatingWriter.leave, hsame]

end Directory

/-! ### What stays recoverable -/

theorem log_subset_putAll (d : DiskView) (cs : List Chunk) : d.log ⊆ (d.putAll cs).log := by
  have hsealed : (d.putAll cs).sealed = d.sealed := (id_putAll d cs).2.2.2.2
  rw [log_eq, log_eq, located_putAll, hsealed, ← List.append_assoc]
  exact List.subset_append_left _ _

/-- The files are recorded and the frames of `log` are in them. -/
structure Kept (log : List (Frame × DiskPos)) (d : DiskView) : Prop where
  files : RecordedFiles d
  log : log ⊆ d.log

theorem Kept.append {rt : Runtime} (h : Kept log s.disk) (hopen : s.active.footer = none)
    (hreadable : AppendReadable rt req fenced s) (heffect : RecordedAppend cfg rt req fenced s s') :
    Kept log s'.disk := by
  refine ⟨h.files.append hopen hreadable heffect, ?_⟩
  cases heffect with
  | refused disk inserted latest =>
      rw [disk]
      exact h.log
  | committed st pos staged disk inserted latest =>
      obtain ⟨d₁, hrotated, -, hdisk⟩ := disk
      rw [hdisk]
      apply List.Subset.trans h.log
      rw [← log_rotated hrotated]
      exact log_subset_putAll d₁ [frameChunk rt st.frame]

theorem Kept.appendBatch {rt : Runtime} {nowUs : Int}
    {items : List BatchAppendItem} (h : Kept log s.disk)
    (hopen : s.active.footer = none) (hcount : items.length ≤ maxBatchRecoveryItems)
    (hreadable : ∀ nowMs, wallMsFromTimestampUs nowUs = .ok nowMs →
      BatchReadable rt nowUs items fenced s nowMs)
    (heffect : RecordedBatch cfg rt nowUs items fenced s s') : Kept log s'.disk := by
  refine ⟨h.files.appendBatch hopen hcount hreadable heffect, ?_⟩
  cases heffect with
  | refused disk inserted latest =>
      rw [disk]
      exact h.log
  | committed nowMs receipts d₁ wall nonempty valid accepted written disk inserted latest =>
      obtain ⟨d₂, nowMs', hrotated, -, -, hwritten⟩ := written
      have hlog : s'.disk.log = (d₂.putAll (envelope rt s.index.globalSequence nowUs nowMs'
          (stagedItems rt (batchContext nowUs nowMs fenced s) s.index [] items))).log := by
        rw [disk, hwritten]
        exact log_congr rfl rfl
      rw [hlog]
      apply List.Subset.trans h.log
      rw [← log_rotated hrotated]
      exact log_subset_putAll d₂ _

theorem Kept.sync {d : DiskView} (h : Kept log d) : Kept log d.sync where
  files := h.files.sync
  log := by
    rw [show d.sync.log = d.log from log_congr rfl rfl]
    exact h.log

theorem Kept.writeFooter {d : DiskView} (h : Kept log d) :
    Kept log { d with active := d.active.writeSidxFooter d.collector } where
  files := h.files.writeFooter
  log := by
    have hlog : ({ d with active := d.active.writeSidxFooter d.collector } : DiskView).log =
        d.log := log_congr rfl rfl
    rw [hlog]
    exact h.log

theorem keptCommands (log : List (Frame × DiskPos)) (cfg : StoreConfig) (rt : Runtime) :
    CommandRules cfg rt (fun s => Kept log s.disk) (recordingGuard rt) :=
  recordingRules cfg rt (fun _ h => h.sync) (fun _ h => h.writeFooter)
    (fun h => h.append) fun h => h.appendBatch

/-! ### Later commands -/

section Later

variable {rt : Runtime}

/-- A step between the failure and the later append: its rotation, if it fails, leaves no file
behind, and its appends are recorded. -/
def LeavesNothing (rt : Runtime) (w : RotatingWriter) (m : RotatingStep) : Prop :=
  m.fault.any RotationFault.leavesFile = false ∧ (recordingGuard rt).Allows w.core m.step

/-- The rotation faults play no part in the recording of an append. -/
theorem allows_rotationFaults {step : WriterStep} (h : (recordingGuard rt).Allows w.core step)
    (fault : Option RotationFault) :
    (recordingGuard rt).Allows w.core (step.mapFaults (w.rotationFaults fault)) := by
  cases step with
  | periodicSync fails => trivial
  | completeShutdown respond flt => trivial
  | command phase q =>
      obtain ⟨command, faults⟩ := q
      intro happends
      obtain ⟨hopen, hrest⟩ := h happends
      have hrecording : ∀ n, faults.Recording n → (w.rotationFaults fault faults).Recording n :=
        fun n hn => ⟨hn.write, hn.encode, hn.sync, hn.intern, hn.sidxRecord⟩
      refine ⟨hopen, ?_⟩
      cases command with
      | append req respond => exact ⟨hrecording _ hrest.1, hrest.2⟩
      | fenceAppend token req respond => exact ⟨hrecording _ hrest.1, hrest.2⟩
      | appendBatch nowUs items respond => exact ⟨hrecording _ hrest.1, hrest.2⟩
      | fenceAppendBatch token nowUs items respond => exact ⟨hrecording _ hrest.1, hrest.2⟩
      | beginVisibilityFence | commitVisibilityFence | cancelVisibilityFence | sync | shutdown =>
          trivial

/-- Such steps keep the frames and leave no file in the way. -/
theorem run_leavesNothing (hkept : Kept log w.core.disk) (hfree : w.successor = false)
    (steps : List RotatingStep) (hsteps : Guarded (rotatingStep cfg rt) (LeavesNothing rt) w steps) :
    Kept log (run (rotatingStep cfg rt) w steps).core.disk ∧
      (run (rotatingStep cfg rt) w steps).successor = false := by
  have hstep : ∀ (w : RotatingWriter) (m : RotatingStep),
      Kept log w.core.disk ∧ w.successor = false → LeavesNothing rt w m →
        Kept log (rotatingStep cfg rt w m).core.disk ∧
          (rotatingStep cfg rt w m).successor = false := by
    rintro w m ⟨hkept, hfree⟩ ⟨hfault, hallows⟩
    constructor
    · exact (keptCommands log cfg rt).writerStep _ hkept (allows_rotationFaults hallows m.fault)
    · unfold rotatingStep RotatingWriter.leave
      dsimp only
      rw [hfree, hfault, Bool.and_false, Bool.or_false]
      split
      · rfl
      · rfl
  exact run_invariant hstep steps w ⟨hkept, hfree⟩ hsteps

/-- Where a successful append that writes puts its frame. -/
theorem commitAppend_lands {flt : Faults}
    (h : commitAppend cfg rt flt req (req.latest s.index) fenced s = .ok receipt s') :
    ∃ d₁ frame, MayRotate cfg s.disk d₁ ∧ frame.eventId = receipt.eventId ∧
      receipt.diskPos = d₁.nextPos (rt.frameLength frame) ∧
      s'.disk.log = (d₁.put (frameChunk rt frame)).log := by
  unfold commitAppend at h
  obtain ⟨⟨st, pos⟩, s₁, hprepare, hrest⟩ := bind_eq_ok.mp h
  dsimp only at hrest
  obtain ⟨u, s₂, hcommit, hrest⟩ := bind_eq_ok.mp hrest
  obtain ⟨v, s₃, hpublish, hreturn⟩ := bind_eq_ok.mp hrest
  cases hreturn
  have hdisk := @prepareAppend_disk s cfg rt flt req (req.latest s.index) fenced s rfl
  have hstaged := @prepareAppend_triple s cfg rt flt req (req.latest s.index) fenced s rfl
  rw [hprepare] at hdisk hstaged
  obtain ⟨d₁, hrotated, hpos, hwritten⟩ := hdisk
  have hreceipt := (stageAppend_reported hstaged.staged).1
  refine ⟨d₁, st.frame, hrotated, hreceipt.symm, hpos, ?_⟩
  have hs₂ : s₂.disk.log = s₁.disk.log := by
    rcases commitStaged_eq flt req.idempotencyKey.isSome st pos s₁ with ⟨e, he⟩ | hok
    · rw [he] at hcommit
      cases hcommit
    · rw [hok] at hcommit
      cases hcommit
      exact log_congr rfl rfl
  have hs₃ : s'.disk = s₂.disk := by
    have honly := publishCommitted_publishOnly fenced st.globalSequence (st.globalSequence + 1)
      st.point [st.notification] s₂
    rw [hpublish] at honly
    exact PublishOnly.disk honly
  rw [hs₃, hs₂, hwritten]

/-- On recorded files the frame is where the receipt says. -/
theorem handleAppend_lands {flt : Faults}
    (hfiles : RecordedFiles s.disk) (hopen : s.active.footer = none)
    (h : handleAppend cfg rt flt req fenced s = .ok receipt s') :
    s'.disk = s.disk ∨
      ∃ frame, frame.eventId = receipt.eventId ∧ (frame, receipt.diskPos) ∈ s'.disk.log := by
  rcases handleAppend_prelude rt req fenced s with ⟨r, -, hdisk, hrun⟩ | ⟨s₀, -, hdisk, hrun⟩ <;>
    rw [hrun] at h
  · rw [h] at hdisk
    exact .inl hdisk
  · obtain ⟨d₁, frame, hrotated, hid, hpos, hlog⟩ := commitAppend_lands h
    rw [hdisk] at hrotated
    obtain ⟨hrecorded, -, -⟩ := hfiles.active.rotated hopen hfiles.sealed hrotated
    refine .inr ⟨frame, hid, ?_⟩
    have hnext : d₁.nextPos (rt.frameLength frame) =
        ⟨d₁.active.id, d₁.active.framesEnd, rt.frameLength frame⟩ := by
      unfold DiskView.nextPos
      rw [hrecorded.id, hrecorded.offset]
    rw [hlog, log_eq, located_put, hpos, hnext]
    apply List.mem_append_right
    apply List.mem_append_right
    exact List.mem_cons_self

/-- After any commands that leave no file in the way, an append that meets no fault and would
succeed where it can rotate does succeed, lies where its receipt says, and every frame of
`log` is still in its place, in files whose footers agree with their frames. -/
def Retries (cfg : StoreConfig) (rt : Runtime) (log : List (Frame × DiskPos))
    (w : RotatingWriter) : Prop :=
  ∀ between, Guarded (rotatingStep cfg rt) (LeavesNothing rt) w between →
    ∀ req fenced receipt s',
      let before := run (rotatingStep cfg rt) w between
      before.core.active.footer = none → AppendReadable rt req fenced before.core →
      handleAppend cfg rt .none req fenced before.core = .ok receipt s' →
        let outcome := before.append cfg rt .none none (.single req fenced)
        outcome.1 = .ok [receipt] ∧
          (outcome.2.core.disk = before.core.disk ∨ ∃ frame, frame.eventId = receipt.eventId ∧
            (frame, receipt.diskPos) ∈ outcome.2.core.disk.log) ∧
          log ⊆ outcome.2.core.disk.log ∧ ∀ seg ∈ outcome.2.core.disk.segments, SidxAgrees seg

/-- An append that would succeed, and rotate, where nothing is in the way. -/
def CanRotate (cfg : StoreConfig) (rt : Runtime) (s : WriterCore) : Prop :=
  s.active.footer = none ∧ ∃ req fenced receipt s', AppendReadable rt req fenced s ∧
    handleAppend cfg rt .none req fenced s = .ok receipt s' ∧ s'.segmentId ≠ s.segmentId

theorem perform_single {flt : Faults} (h : handleAppend cfg rt flt req fenced s = .ok receipt s') :
    (AppendAction.single req fenced).perform cfg rt flt s = .ok [receipt] s' :=
  bind_of_ok h

theorem append_free (hfree : w.successor = false)
    {s' : WriterCore} (h : handleAppend cfg rt .none req fenced w.core = .ok receipt s') :
    (w.append cfg rt .none none (.single req fenced)).1 = .ok [receipt] ∧
      (w.append cfg rt .none none (.single req fenced)).2.core = s' := by
  have hfaults : w.rotationFaults none .none = Faults.none := by
    unfold RotatingWriter.rotationFaults
    rw [hfree]
    rfl
  unfold RotatingWriter.append
  rw [hfaults, perform_single h]
  exact ⟨rfl, rfl⟩

theorem retries_of_free (hkept : Kept log w.core.disk) (hfree : w.successor = false) :
    Retries cfg rt log w := by
  intro between hbetween req fenced receipt s' before hopen hreadable hok
  obtain ⟨hbefore, hbeforeFree⟩ := run_leavesNothing hkept hfree between hbetween
  change Kept log before.core.disk at hbefore
  obtain ⟨hresult, hcore⟩ := append_free hbeforeFree hok
  have heffect := @handleAppend_recorded before.core cfg rt .none 0 req fenced (recording_none 0)
    fun st hst => (hreadable st hst).fits
  rw [hok] at heffect
  have hafter : Kept log s'.disk := hbefore.append hopen hreadable heffect
  intro outcome
  change (outcome.2.core) = s' at hcore
  rw [hcore]
  exact ⟨hresult, handleAppend_lands hbefore.files hopen hok, hafter.log, hafter.files.agrees⟩

/-- With the next file already there, an append that has to rotate fails every time. -/
theorem not_retries_of_successor (hsuccessor : w.successor = true) (hcan : CanRotate cfg rt w.core) :
    ¬Retries cfg rt log w := by
  intro hretries
  obtain ⟨hopen, req, fenced, receipt, s', hreadable, hok, hmoved⟩ := hcan
  have hresult := (hretries [] trivial req fenced receipt s' hopen hreadable hok).1
  have hattempts : w.attempts cfg rt .none (.single req fenced) = true := by
    have hperform : (AppendAction.single req fenced).perform cfg rt Faults.none.rotationFree
        w.core = .ok [receipt] s' := perform_single hok
    unfold RotatingWriter.attempts
    rw [hperform]
    exact bne_iff_ne.mpr hmoved
  obtain ⟨e, he⟩ := (append_blocked hattempts (.inl hsuccessor) : RotationFailed w none _).failed
  rw [run_nil] at hresult
  rw [he] at hresult
  cases hresult

end Later

/-- An append whose rotation fails fails and changes neither the files nor the entries of the
index. What follows goes through, lands where its receipt says and keeps everything
recoverable if and only if the rotation failed at the exclusive creation of the new file. -/
theorem rotation_failure_retryable_iff (cfg : StoreConfig) (rt : Runtime) (flt : Faults)
    (w : RotatingWriter) (action : AppendAction) (fault : RotationFault)
    (hfree : w.successor = false) (hfiles : RecordedFiles w.core.disk)
    (hattempts : w.attempts cfg rt flt action = true) :
    let outcome := w.append cfg rt flt (some fault) action
    (∃ e, outcome.1 = .error e) ∧ outcome.2.core.disk = w.core.disk ∧
      outcome.2.core.index.inserted = w.core.index.inserted ∧
      outcome.2.core.index.latest = w.core.index.latest ∧
      (CanRotate cfg rt outcome.2.core →
        (Retries cfg rt w.core.disk.log outcome.2 ↔ fault = .createNew)) := by
  intro outcome
  have hfailed : RotationFailed w (some fault) outcome := append_blocked hattempts (.inr rfl)
  have hsuccessor : outcome.2.successor = fault.leavesFile := by
    rw [hfailed.successor, hfree]
    rfl
  refine ⟨hfailed.failed, hfailed.disk, hfailed.inserted, hfailed.latest, ?_⟩
  intro hcan
  constructor
  · intro hretries
    cases fault with
    | createNew => rfl
    | header => exact absurd hretries (not_retries_of_successor hsuccessor hcan)
    | oldSync => exact absurd hretries (not_retries_of_successor hsuccessor hcan)
  · rintro rfl
    apply retries_of_free _ hsuccessor
    rw [hfailed.disk]
    exact ⟨hfiles, List.Subset.refl _⟩

/-! ### A full segment -/

def emptyWriter : WriterCore :=
  .spawn .small (.new .unbounded .warn) [] none 1

def fillingStep : WriterStep :=
  .command .main ⟨.append (plainRequest "a" 10 900) 0, .none⟩

def fullCore : WriterCore :=
  writerStep .small .unsigned emptyWriter fillingStep

/-- A writer whose first append filled the active segment. -/
def fullWriter : RotatingWriter :=
  ⟨fullCore, false⟩

def nextAppend : AppendAction :=
  .single (plainRequest "a" 11 4) false

def rotationSucceeds (s : WriterCore) : EStateM.Result StoreError WriterCore AppendReceipt → Bool
  | .ok _ s' => s'.segmentId != s.segmentId
  | .error _ _ => false

theorem canRotate_of_succeeds {cfg : StoreConfig} {rt : Runtime} {s : WriterCore}
    {req : AppendRequest} {fenced : Bool} (hopen : s.active.footer = none)
    (hreadable : AppendReadable rt req fenced s)
    (h : rotationSucceeds s (handleAppend cfg rt .none req fenced s) = true) :
    CanRotate cfg rt s := by
  refine ⟨hopen, req, fenced, ?_⟩
  cases hrun : handleAppend cfg rt .none req fenced s with
  | ok receipt s' =>
      rw [hrun] at h
      exact ⟨receipt, s', hreadable, rfl, bne_iff_ne.mp h⟩
  | error e s' =>
      rw [hrun] at h
      cases h

/-- A creation that failed without leaving a file can be tried again. -/
theorem failed_creation_retried :
    fullWriter.attempts .small .unsigned .none nextAppend = true ∧
      Retries .small .unsigned fullWriter.core.disk.log
        (fullWriter.append .small .unsigned .none (some .createNew) nextAppend).2 := by
  have hattempts : fullWriter.attempts .small .unsigned .none nextAppend = true := by
    decide +kernel
  have hempty : RecordedFiles emptyWriter.disk := by
    refine ⟨Recorded.create .small [] 1, ?_, ?_⟩
    · intro rows hrows
      cases hrows
    · intro seg hseg
      cases hseg
  have hfills : (recordingGuard .unsigned).Allows emptyWriter fillingStep := by
    intro _
    decide +kernel
  have hfiles : RecordedFiles fullCore.disk := by
    unfold fullCore
    exact @CommandRules.writerStep .small .unsigned (fun s => RecordedFiles s.disk)
      (recordingGuard .unsigned) emptyWriter (recordedCommands .small .unsigned) fillingStep hempty
      hfills
  have hcan : CanRotate .small .unsigned
      (fullWriter.append .small .unsigned .none (some .createNew) nextAppend).2.core :=
    @canRotate_of_succeeds _ _ _ (plainRequest "a" 11 4) false (by decide +kernel)
      (by decide +kernel) (by decide +kernel)
  have hcore : fullWriter.core = fullCore := by simp only [fullWriter]
  rw [← hcore] at hfiles
  have hiff := (rotation_failure_retryable_iff .small .unsigned .none fullWriter nextAppend
    .createNew rfl hfiles hattempts).2.2.2.2
  refine ⟨hattempts, ?_⟩
  apply (hiff hcan).mpr
  rfl

/-- After a failed sync of the old segment the new file is in the way: the retry fails although
nothing fails under it, and so does every further one. -/
theorem leftover_file_blocks_retry :
    let failed := fullWriter.append .small .unsigned .none (some .oldSync) nextAppend
    let retried := failed.2.append .small .unsigned .none none nextAppend
    let again := retried.2.append .small .unsigned .none none nextAppend
    failed.1.isOk = false ∧ retried.1.isOk = false ∧ again.1.isOk = false ∧
      rotationSucceeds failed.2.core (handleAppend .small .unsigned .none
        (plainRequest "a" 11 4) false failed.2.core) = true := by
  decide +kernel

end Batpak.Store
