/-
Module: Batpak.Proofs.DurableHonesty
Purpose: When the published durable point can be trusted: away from the windows in which it runs
  ahead of the disk, what lies at or below it is on fsynced bytes.
Trusted boundary: none
Main exports: HonestStep, durable_honest_of_covered_steps
-/
import Batpak.Proofs.BatchEffects
import Batpak.Proofs.MachineRules
import Batpak.Store.Open
import Batpak.Util.Run

namespace Batpak.Store

open Batpak.Util

variable {s s' s₀ : WriterCore} {e : IndexEntry} {st : StagedCommittedEvent}
  {staged : List StagedCommittedEvent} {receipts : List AppendReceipt}

/-! ### The property -/

/-- The frame stores exactly what the index entry says about the event. -/
structure Describes (f : Frame) (e : IndexEntry) : Prop where
  eventId : f.eventId = e.eventId
  correlationId : f.correlationId = e.correlationId
  coord : f.coord = e.coord
  kind : f.kind = e.kind
  wallMs : f.wallMs = e.wallMs
  clock : f.clock = e.clock
  dagLane : f.dagLane = e.dagLane
  dagDepth : f.dagDepth = e.dagDepth
  hashChain : f.hashChain = e.hashChain
  receiptExtensions : f.receiptExtensions = e.receiptExtensions
  provenance : f.provenance = e.provenance

theorem describes_indexEntry (st : StagedCommittedEvent) (pos : DiskPos) :
    Describes st.frame (st.indexEntry pos) :=
  ⟨rfl, rfl, rfl, rfl, rfl, rfl, rfl, rfl, rfl, rfl, rfl⟩

/-- The entry's complete frame lies inside fsynced bytes of the segment it points to. -/
def OnSyncedBytes (s : WriterCore) (e : IndexEntry) : Prop :=
  ∃ seg ∈ s.segments, seg.id = e.diskPos.segmentId ∧ ∃ f ∈ seg.syncedFrames, Describes f e

/-- Every event at or below the durable point, indexed or still in flight, has its complete
frame inside fsynced bytes. -/
def DurableHonest (m : WriterMachine) : Prop :=
  (∀ e ∈ m.core.index.inserted,
    e.globalSequence ≤ m.core.watermark.durable.globalSequence → OnSyncedBytes m.core e) ∧
  ∀ st ∈ m.stage.inFlight,
    st.globalSequence ≤ m.core.watermark.durable.globalSequence →
      ∃ seg ∈ m.core.segments, st.frame ∈ seg.syncedFrames

/-- The accepted point lies below the allocator, or the sync fails. The first part is
false only between a single append that failed after its acceptance and the next event. -/
def SyncCovered (syncFails : Bool) (s : WriterCore) : Prop :=
  syncFails = true ∨ s.watermark.accepted.globalSequence < s.index.gate.allocated

/-- The rotation check leaves the segment alone. -/
def RotationQuiet (cfg : StoreConfig) (flt : Faults) (s : WriterCore) : Prop :=
  s.active.needsRotation cfg.segmentMaxBytes = false ∨ flt.rotateCreate = true ∨
    flt.rotateSync = true

/-- The steps that keep the durable point honest: no segment is rotated away between the
acceptance of an event and its write, and no sync runs over a failed acceptance. -/
def HonestStep (cfg : StoreConfig) (m : WriterMachine) : MachineStep → Prop
  | .start (.command loop q) =>
      commandSyncs loop q.command = true → SyncCovered q.faults.sync m.core
  | .start (.periodicSync fails) => SyncCovered fails m.core
  | .start (.completeShutdown _ flt) => SyncCovered flt.sync m.core
  | .advance =>
      match m.stage with
      | .accepted t .. => RotationQuiet cfg t.faults m.core
      | .batchStaged t _ => RotationQuiet cfg t.faults m.core
      | _ => True

/-- A store whose open has completed: everything it recovered is on fsynced bytes and the
watermarks start from one point below the allocator. -/
structure Bootstrapped (s : WriterCore) : Prop where
  activeId : s.active.id = s.segmentId
  recovered : ∀ e ∈ s.index.inserted, OnSyncedBytes s e
  accepted_eq : s.watermark.accepted = s.watermark.durable
  durable_lt : s.watermark.durable.globalSequence < s.index.gate.allocated

instance (f : Frame) (e : IndexEntry) : Decidable (Describes f e) :=
  decidable_of_iff
    (f.eventId = e.eventId ∧ f.correlationId = e.correlationId ∧ f.coord = e.coord ∧
      f.kind = e.kind ∧ f.wallMs = e.wallMs ∧ f.clock = e.clock ∧ f.dagLane = e.dagLane ∧
      f.dagDepth = e.dagDepth ∧ f.hashChain = e.hashChain ∧
      f.receiptExtensions = e.receiptExtensions ∧ f.provenance = e.provenance)
    ⟨fun ⟨h₁, h₂, h₃, h₄, h₅, h₆, h₇, h₈, h₉, h₁₀, h₁₁⟩ =>
        ⟨h₁, h₂, h₃, h₄, h₅, h₆, h₇, h₈, h₉, h₁₀, h₁₁⟩,
      fun h => ⟨h.1, h.2, h.3, h.4, h.5, h.6, h.7, h.8, h.9, h.10, h.11⟩⟩

instance (s : WriterCore) (e : IndexEntry) : Decidable (OnSyncedBytes s e) :=
  inferInstanceAs (Decidable (∃ seg ∈ s.segments, seg.id = e.diskPos.segmentId ∧
    ∃ f ∈ seg.syncedFrames, Describes f e))

instance (m : WriterMachine) : Decidable (DurableHonest m) :=
  inferInstanceAs (Decidable (_ ∧ _))

instance (fails : Bool) (s : WriterCore) : Decidable (SyncCovered fails s) :=
  inferInstanceAs (Decidable (_ ∨ _))

instance (cfg : StoreConfig) (flt : Faults) (s : WriterCore) :
    Decidable (RotationQuiet cfg flt s) :=
  inferInstanceAs (Decidable (_ ∨ _))

instance (cfg : StoreConfig) : (m : WriterMachine) → (i : MachineStep) →
    Decidable (HonestStep cfg m i)
  | m, .start (.command loop q) =>
      inferInstanceAs (Decidable (commandSyncs loop q.command = true →
        SyncCovered q.faults.sync m.core))
  | m, .start (.periodicSync fails) => inferInstanceAs (Decidable (SyncCovered fails m.core))
  | m, .start (.completeShutdown _ flt) =>
      inferInstanceAs (Decidable (SyncCovered flt.sync m.core))
  | ⟨core, .accepted t _ _ _⟩, .advance =>
      inferInstanceAs (Decidable (RotationQuiet cfg t.faults core))
  | ⟨core, .batchStaged t _⟩, .advance =>
      inferInstanceAs (Decidable (RotationQuiet cfg t.faults core))
  | ⟨_, .idle⟩, .advance | ⟨_, .rotated ..⟩, .advance | ⟨_, .written ..⟩, .advance
  | ⟨_, .committed ..⟩, .advance | ⟨_, .batchRotated ..⟩, .advance | ⟨_, .batchOpen ..⟩, .advance
  | ⟨_, .batchClosed ..⟩, .advance | ⟨_, .batchSynced ..⟩, .advance
  | ⟨_, .batchCommitted ..⟩, .advance => inferInstanceAs (Decidable True)

/-! ### What the durable point depends on -/

/-- The parts of the state the durable point is judged by are the same. -/
structure SameFooting (s s' : WriterCore) : Prop where
  inserted : s'.index.inserted = s.index.inserted
  allocated : s'.index.gate.allocated = s.index.gate.allocated
  active : s'.active = s.active
  sealed : s'.sealed = s.sealed
  segmentId : s'.segmentId = s.segmentId
  accepted : s'.watermark.accepted = s.watermark.accepted
  durable : s'.watermark.durable = s.watermark.durable

theorem SameFooting.refl (s : WriterCore) : SameFooting s s :=
  ⟨rfl, rfl, rfl, rfl, rfl, rfl, rfl⟩

theorem SameFooting.trans {s'' : WriterCore} (h : SameFooting s s') (h' : SameFooting s' s'') :
    SameFooting s s'' :=
  ⟨h'.inserted.trans h.inserted, h'.allocated.trans h.allocated, h'.active.trans h.active,
    h'.sealed.trans h.sealed, h'.segmentId.trans h.segmentId, h'.accepted.trans h.accepted,
    h'.durable.trans h.durable⟩

theorem sendReply_sameFooting (respond : Nat) (reply : Reply) (s : WriterCore) :
    SameFooting s (sendReply respond reply s) :=
  ⟨rfl, rfl, rfl, rfl, rfl, rfl, rfl⟩

theorem deliver_sameFooting (t : Ticket) (reply : Reply) (pending : PendingFenceResponse)
    (s : WriterCore) : SameFooting s (deliver t reply pending s) := by
  cases h : t.token with
  | none =>
      simp only [deliver, h]
      exact sendReply_sameFooting t.respond reply s
  | some token =>
      simp only [deliver, h]
      exact ⟨rfl, rfl, rfl, rfl, rfl, rfl, rfl⟩

theorem advanceVisibleOnLanes_durable (w : WatermarkState) (ns : List Notification) :
    (advanceVisibleOnLanes w ns).durable = w.durable ∧
      (advanceVisibleOnLanes w ns).accepted = w.accepted := by
  unfold advanceVisibleOnLanes
  generalize lanePublishPointsFromNotifications ns = points
  induction points generalizing w with
  | nil => exact ⟨rfl, rfl⟩
  | cons p rest ih =>
      obtain ⟨hdurable, haccepted⟩ := ih (w.advanceVisibleAndEmittedOnLane p.1 p.2.frontierPoint)
      exact ⟨hdurable, haccepted⟩

theorem noteFenceProgress_allocated {g g' : SequenceGate} {token start stop : Nat}
    (h : g.noteFenceProgress token start stop = .ok g') : g'.allocated = g.allocated := by
  unfold SequenceGate.noteFenceProgress at h
  split at h
  · cases h
    rfl
  · cases h

theorem publishCommitted_sameFooting (fenced : Bool) (first upTo : Nat) (point : HlcPoint)
    (ns : List Notification) (s : WriterCore) :
    Post (fun _ => SameFooting s) (SameFooting s)
      (publishCommitted fenced first upTo point ns s) := by
  cases fenced with
  | true =>
      simp only [publishCommitted, if_true]
      unfold recordFenceProgress
      split
      · exact SameFooting.refl s
      · dsimp only
        split
        · exact ⟨rfl, rfl, rfl, rfl, rfl, rfl, rfl⟩
        · rename_i gate hgate
          exact ⟨rfl, noteFenceProgress_allocated hgate, rfl, rfl, rfl, rfl, rfl⟩
  | false =>
      simp only [publishCommitted, Bool.false_eq_true, if_false]
      unfold publishThenBroadcastUnfenced
      split
      · exact SameFooting.refl s
      · rename_i gate hgate
        obtain ⟨-, -, rfl⟩ := SequenceGate.publishOnLanes_ok hgate
        obtain ⟨hdurable, haccepted⟩ :=
          advanceVisibleOnLanes_durable (s.watermark.advanceVisibleAndEmitted point) ns
        exact ⟨rfl, rfl, rfl, rfl, rfl, haccepted, hdurable⟩

theorem beginVisibilityFence_sameFooting (token : Nat) (s : WriterCore) :
    SameFooting s (finalState (beginVisibilityFence token s)) :=
  beginVisibilityFence_cases (.refl s) fun _ _ _ => ⟨rfl, rfl, rfl, rfl, rfl, rfl, rfl⟩

theorem finishFenceOnLanes_allocated {g g' : SequenceGate} {token : Nat} {upTo : Option Nat}
    {lanes : List (Nat × Nat)} (h : g.finishFenceOnLanes token upTo lanes = .ok g') :
    g'.allocated = g.allocated := by
  unfold SequenceGate.finishFenceOnLanes at h
  split at h
  · split at h
    · split at h
      · rename_i g'' hpublish
        obtain ⟨-, -, rfl⟩ := SequenceGate.publishOnLanes_ok hpublish
        cases h
        rfl
      · cases h
    · cases h
      rfl
  · cases h

theorem commitVisibilityFence_sameFooting (token : Nat) (s : WriterCore) :
    SameFooting s (finalState (commitVisibilityFence token s)) := by
  refine commitVisibilityFence_cases (.refl s)
    (fun _ _ _ _ _ => ⟨rfl, rfl, rfl, rfl, rfl, rfl, rfl⟩) ?_
  intro fence gate _ _ hgate
  refine ⟨rfl, finishFenceOnLanes_allocated hgate, rfl, rfl, rfl, ?_, ?_⟩
  · refine (advanceVisibleOnLanes_durable _ _).2.trans ?_
    cases fence.frontierPoint <;> rfl
  · refine (advanceVisibleOnLanes_durable _ _).1.trans ?_
    cases fence.frontierPoint <;> rfl

theorem gateAfterCancel_allocated (token : Nat) (s : WriterCore) :
    (s.gateAfterCancel token).allocated = s.index.gate.allocated := by
  refine gateAfterCancel_cases rfl ?_
  intro gate hgate
  unfold SequenceGate.cancelFence at hgate
  split at hgate
  · cases hgate
    rfl
  · cases hgate

theorem cancelVisibilityFence_sameFooting (flt : Faults) (token : Nat) (s : WriterCore) :
    SameFooting s (finalState (cancelVisibilityFence flt token s)) :=
  have hallocated := gateAfterCancel_allocated token s
  cancelVisibilityFence_cases (.refl s)
    (fun _ _ _ _ => ⟨rfl, hallocated, rfl, rfl, rfl, rfl, rfl⟩)
    fun _ _ _ => ⟨rfl, hallocated, rfl, rfl, rfl, rfl, rfl⟩

theorem autoCancelFenceOnShutdown_sameFooting (flt : Faults) (s : WriterCore) :
    SameFooting s (autoCancelFenceOnShutdown flt s) :=
  autoCancelFenceOnShutdown_cases (fun _ => .refl s)
    fun fence _ => ⟨rfl, gateAfterCancel_allocated fence.token s, rfl, rfl, rfl, rfl, rfl⟩

theorem admitBatchKeys_sameFooting (items : List BatchAppendItem) :
    ∀ s, Post (fun _ => SameFooting s) (SameFooting s) (admitBatchKeys items s) := by
  intro s
  unfold admitBatchKeys
  cases s.index.idemp.admitNewKeys (items.filterMap (·.idempotencyKey)) s.index.globalSequence with
  | mk r idemp =>
      cases r with
      | ok u => exact ⟨rfl, rfl, rfl, rfl, rfl, rfl, rfl⟩
      | error e => exact ⟨rfl, rfl, rfl, rfl, rfl, rfl, rfl⟩

theorem tryIdempotencyReplay_sameFooting (rt : Runtime) (key : Nat) :
    ∀ s, Post (fun _ => SameFooting s) (SameFooting s) (tryIdempotencyReplay rt key s) := by
  intro s
  unfold tryIdempotencyReplay
  cases s.index.idemp.get key with
  | some durable => exact SameFooting.refl s
  | none =>
      cases s.index.getById key with
      | some entry => exact SameFooting.refl s
      | none =>
          dsimp only
          cases s.index.idemp.admitNewKey key s.index.globalSequence with
          | mk r idemp =>
              cases r with
              | ok u => exact ⟨rfl, rfl, rfl, rfl, rfl, rfl, rfl⟩
              | error e => exact ⟨rfl, rfl, rfl, rfl, rfl, rfl, rfl⟩

/-! ### The invariant between phases -/

/-- The entry's frame is fsynced in a sealed segment, or written to the active one. -/
def Held (s : WriterCore) (e : IndexEntry) : Prop :=
  ∃ f, Describes f e ∧
    ((∃ seg ∈ s.sealed, seg.id = e.diskPos.segmentId ∧ f ∈ seg.syncedFrames) ∨
      (s.active.id = e.diskPos.segmentId ∧ f ∈ s.active.frames))

/-- What holds of the writer's state at every phase. -/
structure CoreHonest (s : WriterCore) : Prop where
  activeId : s.active.id = s.segmentId
  held : ∀ e ∈ s.index.inserted, Held s e
  honest : ∀ e ∈ s.index.inserted,
    e.globalSequence ≤ s.watermark.durable.globalSequence → OnSyncedBytes s e
  accepted_le : s.watermark.accepted.globalSequence ≤ s.index.gate.allocated
  durable_lt : s.watermark.durable.globalSequence < s.index.gate.allocated

/-- Bytes were added to the active segment and sequences were reserved; nothing that was
on disk is gone and the durable point has not moved. -/
structure Extends (s s' : WriterCore) : Prop where
  inserted : s'.index.inserted = s.index.inserted
  allocated : s.index.gate.allocated ≤ s'.index.gate.allocated
  activeId : s'.active.id = s.active.id
  frames : s.active.frames ⊆ s'.active.frames
  syncedFrames : s.active.syncedFrames ⊆ s'.active.syncedFrames
  sealed : s'.sealed = s.sealed
  segmentId : s'.segmentId = s.segmentId
  durable : s'.watermark.durable = s.watermark.durable

theorem Extends.refl (s : WriterCore) : Extends s s :=
  ⟨rfl, le_refl _, rfl, List.Subset.refl _, List.Subset.refl _, rfl, rfl, rfl⟩

theorem Extends.trans {s'' : WriterCore} (h : Extends s s') (h' : Extends s' s'') :
    Extends s s'' :=
  ⟨h'.inserted.trans h.inserted, h.allocated.trans h'.allocated, h'.activeId.trans h.activeId,
    List.Subset.trans h.frames h'.frames, List.Subset.trans h.syncedFrames h'.syncedFrames,
    h'.sealed.trans h.sealed, h'.segmentId.trans h.segmentId, h'.durable.trans h.durable⟩

theorem SameFooting.extends (h : SameFooting s s') : Extends s s' where
  inserted := h.inserted
  allocated := h.allocated.ge
  activeId := by rw [h.active]
  frames := by rw [h.active]; exact List.Subset.refl _
  syncedFrames := by rw [h.active]; exact List.Subset.refl _
  sealed := h.sealed
  segmentId := h.segmentId
  durable := h.durable

theorem OnSyncedBytes.extend (h : OnSyncedBytes s e) (hext : Extends s s') :
    OnSyncedBytes s' e := by
  obtain ⟨seg, hseg, hid, f, hf, hdesc⟩ := h
  rcases List.mem_append.mp hseg with hsealed | hactive
  · refine ⟨seg, List.mem_append_left _ ?_, hid, f, hf, hdesc⟩
    rw [hext.sealed]
    exact hsealed
  · obtain rfl := List.mem_singleton.mp hactive
    refine ⟨s'.active, List.mem_append_right _ (List.mem_singleton.mpr rfl), ?_, f,
      hext.syncedFrames hf, hdesc⟩
    rw [hext.activeId]
    exact hid

theorem Held.extend (h : Held s e) (hext : Extends s s') :
    Held s' e := by
  obtain ⟨f, hdesc, ⟨seg, hseg, hid, hf⟩ | ⟨hid, hf⟩⟩ := h
  · refine ⟨f, hdesc, .inl ⟨seg, ?_, hid, hf⟩⟩
    rw [hext.sealed]
    exact hseg
  · refine ⟨f, hdesc, .inr ⟨?_, hext.frames hf⟩⟩
    rw [hext.activeId]
    exact hid

theorem CoreHonest.extend (h : CoreHonest s) (hext : Extends s s')
    (haccepted : s'.watermark.accepted.globalSequence ≤ s'.index.gate.allocated) :
    CoreHonest s' where
  activeId := by rw [hext.activeId, hext.segmentId, h.activeId]
  held := by
    intro e he
    rw [hext.inserted] at he
    exact (h.held e he).extend hext
  honest := by
    intro e he hle
    rw [hext.inserted] at he
    rw [hext.durable] at hle
    exact (h.honest e he hle).extend hext
  accepted_le := haccepted
  durable_lt := by
    rw [hext.durable]
    exact lt_of_lt_of_le h.durable_lt hext.allocated

theorem CoreHonest.sameFooting (h : CoreHonest s) (hs : SameFooting s s') :
    CoreHonest s' := by
  refine h.extend hs.extends ?_
  rw [hs.accepted, hs.allocated]
  exact h.accepted_le

/-- After an fsync of the active segment everything written is on fsynced bytes. -/
theorem Held.onSyncedBytes_sync (h : Held s e) (hactive : s'.active = s.active.sync)
    (hsealed : s'.sealed = s.sealed) :
    OnSyncedBytes s' e := by
  obtain ⟨f, hdesc, ⟨seg, hseg, hid, hf⟩ | ⟨hid, hf⟩⟩ := h
  · refine ⟨seg, List.mem_append_left _ ?_, hid, f, hf, hdesc⟩
    rw [hsealed]
    exact hseg
  · refine ⟨s'.active, List.mem_append_right _ (List.mem_singleton.mpr rfl), ?_, f, ?_, hdesc⟩
    · rw [hactive]
      exact hid
    · rw [hactive, Segment.sync_syncedFrames]
      exact hf

/-- A sync keeps the durable point honest when the accepted point is not ahead of the
allocator. -/
theorem syncActiveSegment_coreHonest (flt : Faults) (h : CoreHonest s)
    (hcovered : SyncCovered flt.sync s) :
    Post (fun _ s' => CoreHonest s' ∧ s'.active = s.active.sync ∧ s'.segmentId = s.segmentId)
      CoreHonest (syncActiveSegment flt s) := by
  unfold syncActiveSegment
  split
  · exact h
  · rename_i hfault
    have hlt : s.watermark.accepted.globalSequence < s.index.gate.allocated := by
      rcases hcovered with hfails | hlt
      · exact absurd hfails hfault
      · exact hlt
    refine ⟨⟨h.activeId, ?_, ?_, h.accepted_le, ?_⟩, rfl, rfl⟩
    · intro e he
      obtain ⟨f, hdesc, hsealed | ⟨hid, hf⟩⟩ := h.held e he
      · exact ⟨f, hdesc, .inl hsealed⟩
      · exact ⟨f, hdesc, .inr ⟨hid, hf⟩⟩
    · intro e he _
      exact (h.held e he).onSyncedBytes_sync rfl rfl
    · change s.watermark.advanceDurableToAccepted.durable.globalSequence < s.index.gate.allocated
      rw [WatermarkState.advanceDurableToAccepted_durable]
      exact Nat.max_lt.mpr ⟨h.durable_lt, hlt⟩

/-- A quiet rotation check changes nothing. -/
theorem maybeRotateSegment_quiet {cfg : StoreConfig} {flt : Faults} (h : RotationQuiet cfg flt s) :
    maybeRotateSegment cfg flt s = .ok false s ∨
      ∃ e, maybeRotateSegment cfg flt s = .error e s := by
  unfold maybeRotateSegment
  by_cases hneeds : s.active.needsRotation cfg.segmentMaxBytes = true
  · right
    rw [if_pos hneeds]
    by_cases hcreate : flt.rotateCreate = true
    · rw [if_pos hcreate]
      exact ⟨_, rfl⟩
    · rw [if_neg hcreate]
      rcases h with h | h | h
      · rw [h] at hneeds
        cases hneeds
      · exact absurd h hcreate
      · rw [if_pos h]
        exact ⟨_, rfl⟩
  · left
    rw [if_neg hneeds]

/-- Reached from `s₀` by writing frames only. -/
structure Writing (s₀ s : WriterCore) : Prop where
  core : CoreHonest s
  ext : Extends s₀ s
  accepted : s.watermark.accepted = s₀.watermark.accepted
  index : s.index = s₀.index

theorem Writing.refl (h : CoreHonest s) : Writing s s :=
  ⟨h, Extends.refl s, rfl, rfl⟩

theorem writeFrame_writing (flt : Faults) (i : Nat) (f : Frame) (length : Nat) :
    Triple (Writing s₀) (writeFrame flt i f length)
      (fun _ s => Writing s₀ s ∧ f ∈ s.active.frames) (Writing s₀) := by
  intro s hs
  have hframes := s.active.frames_subset_writeFrame f length (flt.write i)
  have hsynced := s.active.syncedFrames_subset_writeFrame f length (flt.write i)
  have hid : (s.active.writeFrame f length (flt.write i)).2.id = s.active.id := by
    unfold Segment.writeFrame
    split <;> rfl
  unfold writeFrame
  cases hw : s.active.writeFrame f length (flt.write i) with
  | mk r seg =>
      rw [hw] at hframes hsynced hid
      have hext : Extends s { s with active := seg } :=
        ⟨rfl, le_refl _, hid, hframes, hsynced, rfl, rfl, rfl⟩
      have hnext : Writing s₀ { s with active := seg } :=
        ⟨hs.core.extend hext hs.core.accepted_le, hs.ext.trans hext, hs.accepted, hs.index⟩
      cases r with
      | ok offset => exact ⟨hnext, Segment.mem_frames_of_writeFrame_ok hw⟩
      | error e => exact hnext

theorem writeStaged_writing (flt : Faults) (i : Nat) (st : StagedCommittedEvent) (length : Nat) :
    Triple (Writing s₀) (writeStaged flt i st length)
      (fun _ s => Writing s₀ s ∧ st.frame ∈ s.active.frames) (Writing s₀) := by
  refine Triple.bind (writeFrame_writing flt i st.frame length) fun offset => ?_
  refine Triple.bind (Triple.modify fun s hs => ?_) fun _ => Triple.pure fun s hs => hs
  obtain ⟨hs, hf⟩ := hs
  have hext : Extends s { s with
      watermark := s.watermark.advanceWrittenOnLane st.frame.dagLane st.point } :=
    ⟨rfl, le_refl _, rfl, List.Subset.refl _, List.Subset.refl _, rfl, rfl, rfl⟩
  exact ⟨⟨hs.core.extend hext hs.core.accepted_le, hs.ext.trans hext, hs.accepted, hs.index⟩, hf⟩

/-- The item's frame is in the active segment and its receipt points there. -/
def Placed (s : WriterCore) (st : StagedCommittedEvent) (pos : DiskPos) : Prop :=
  st.frame ∈ s.active.frames ∧ pos.segmentId = s.segmentId

theorem Placed.extend {pos : DiskPos} (h : Placed s st pos) (hext : Extends s s') :
    Placed s' st pos :=
  ⟨hext.frames h.1, by rw [hext.segmentId]; exact h.2⟩

theorem placeAppend_writing (t : Ticket) (st : StagedCommittedEvent) (length : Nat) :
    Triple (Writing s₀) (placeAppend t st length)
      (fun pos s => Writing s₀ s ∧ Placed s st pos) (Writing s₀) := by
  refine Triple.bind (writeStaged_writing t.faults 0 st length) fun offset => ?_
  refine checked (fun s hs => hs.1) fun _ => ?_
  refine Triple.bind (Q := fun t s => t = s ∧ Writing s₀ s ∧ st.frame ∈ s.active.frames)
    (Triple.get fun s hs => ⟨rfl, hs⟩) fun t => ?_
  refine Triple.pure ?_
  rintro s ⟨rfl, hs, hf⟩
  exact ⟨hs, hf, rfl⟩

theorem writeBatchEventFrame_writing (rt : Runtime) (flt : Faults) (idx : Nat)
    (st : StagedCommittedEvent) :
    Triple (Writing s₀) (writeBatchEventFrame rt flt idx st)
      (fun r s => Writing s₀ s ∧ Placed s st r.diskPos) (Writing s₀) := by
  refine batchFailedAt_triple idx ?_
  refine Triple.bind (liftExcept_keeps _) fun _ => ?_
  refine Triple.bind (liftExcept_keeps _) fun length => ?_
  refine Triple.bind (writeStaged_writing flt (idx + 1) st length) fun offset => ?_
  refine checked (fun s hs => hs.1) fun _ => ?_
  refine Triple.bind (Q := fun t s => t = s ∧ Writing s₀ s ∧ st.frame ∈ s.active.frames)
    (Triple.get fun s hs => ⟨rfl, hs⟩) fun t => ?_
  refine Triple.pure ?_
  rintro s ⟨rfl, hs, hf⟩
  exact ⟨hs, hf, rfl⟩

/-- The COMMIT marker never rotates. -/
theorem writeCommitMarker_writing (cfg : StoreConfig) (rt : Runtime) (flt : Faults)
    (i batchId : Nat) (nowUs : Int) (item : Nat) :
    Keeps (Writing s₀)
      (writeBatchMarkerFrame cfg rt flt i batchId .systemBatchCommit 0 nowUs item false) := by
  refine batchFailedAt_triple item ?_
  refine Keeps.bind (liftExcept_keeps _) fun nowMs => ?_
  refine Keeps.bind (liftExcept_keeps _) fun length => ?_
  refine Keeps.bind (Keeps.pure false) fun _ => ?_
  exact Triple.onReturn (writeFrame_writing flt i _ length) (fun _ s hs => hs.1)

/-! ### Acceptance -/

/-- Accepting an event at the next sequence keeps the invariant. -/
theorem CoreHonest.accept (h : CoreHonest s) (lane : Nat) {p : HlcPoint}
    (hp : p.globalSequence ≤ s.index.gate.allocated) :
    CoreHonest { s with watermark := s.watermark.advanceAcceptedOnLane lane p } := by
  refine h.extend ⟨rfl, le_refl _, rfl, List.Subset.refl _, List.Subset.refl _, rfl, rfl, ?_⟩ ?_
  · exact WatermarkState.advanceAcceptedOnLane_durable _ _ _
  · change (s.watermark.advanceAcceptedOnLane lane p).accepted.globalSequence ≤ _
    rw [WatermarkState.advanceAcceptedOnLane_accepted]
    exact Nat.max_le.mpr ⟨h.accepted_le, hp⟩

theorem startAppend_coreHonest (rt : Runtime) (t : Ticket) (req : AppendRequest) :
    Triple CoreHonest (startAppend rt t req)
      (fun r s => CoreHonest s ∧
        ∀ st length, r = .inr (st, length) → st.globalSequence = s.index.gate.allocated)
      CoreHonest := by
  apply startAppend_rule (Q := fun st s => st.globalSequence = s.index.gate.allocated)
  · intro s hs
    unfold replayKey
    cases req.idempotencyKey with
    | none => exact hs
    | some key =>
        have h := tryIdempotencyReplay_sameFooting rt key s
        simp only
        exact h.mono (fun _ _ h => hs.sameFooting h) fun _ h => hs.sameFooting h
  · intro s st hs hseq
    exact ⟨hs.accept _ hseq.le, hseq⟩

/-- The staged items lie above the durable point, and a sync would be covered. -/
structure BatchAhead (s : WriterCore) (staged : List StagedCommittedEvent) : Prop where
  covered : s.watermark.accepted.globalSequence < s.index.gate.allocated
  ahead : ∀ st ∈ staged, s.watermark.durable.globalSequence < st.globalSequence

theorem BatchAhead.writing (h : BatchAhead s staged) (hw : Writing s s') :
    BatchAhead s' staged := by
  refine ⟨?_, ?_⟩
  · rw [hw.accepted, hw.index]
    exact h.covered
  · intro st hst
    rw [hw.ext.durable]
    exact h.ahead st hst

theorem startBatch_coreHonest (cfg : StoreConfig) (rt : Runtime) (t : Ticket) (nowUs : Int)
    (items : List BatchAppendItem) :
    Triple CoreHonest (startBatch cfg rt t nowUs items)
      (fun r s => CoreHonest s ∧ ∀ plan, r = .inr plan → BatchAhead s plan.staged)
      CoreHonest := by
  refine Triple.onReturn (startBatch_rule (S := fun first staged s => BatchAhead s staged ∧
    s.watermark.durable.globalSequence < first) cfg t nowUs ?_ ?_ ?_)
    fun r s hs => ⟨hs.1, fun plan hplan => (hs.2 plan hplan).1.1⟩
  · intro s hs
    have h := admitBatchKeys_sameFooting items s
    exact h.mono (fun _ _ h => hs.sameFooting h) fun _ h => hs.sameFooting h
  -- the reservation opens a gap of `items.length` sequences above the durable point
  · intro s hlength hs
    have hext : Extends s (reserved items.length s) :=
      ⟨rfl, Nat.le_add_right _ _, rfl, List.Subset.refl _, List.Subset.refl _, rfl, rfl, rfl⟩
    have hlt : s.watermark.accepted.globalSequence < s.index.gate.allocated + items.length :=
      lt_of_le_of_lt hs.accepted_le (Nat.lt_add_of_pos_right hlength)
    exact ⟨hs.extend hext hlt.le, ⟨hlt, fun st hst => by cases hst⟩, hs.durable_lt⟩
  · rintro s first staged st hs ⟨hahead, hfirst⟩ hseq hreserved
    refine ⟨hs.accept _ hreserved.le, ⟨?_, ?_⟩, ?_⟩
    · change (s.watermark.advanceAcceptedOnLane _ _).accepted.globalSequence < _
      rw [WatermarkState.advanceAcceptedOnLane_accepted]
      exact Nat.max_lt.mpr ⟨hahead.covered, hreserved⟩
    · intro st' hst'
      change (s.watermark.advanceAcceptedOnLane _ _).durable.globalSequence < _
      rw [WatermarkState.advanceAcceptedOnLane_durable]
      rcases List.mem_append.mp hst' with hold | hnew
      · exact hahead.ahead st' hold
      · obtain rfl := List.mem_singleton.mp hnew
        omega
    · change (s.watermark.advanceAcceptedOnLane _ _).durable.globalSequence < _
      rw [WatermarkState.advanceAcceptedOnLane_durable]
      exact hfirst

/-! ### The commit points -/

theorem recordSidxEntries_sameFooting (flt : Faults) (rows : List SidxEntry) :
    ∀ (idx : Nat) (s : WriterCore),
      SameFooting s (finalState (recordSidxEntries flt idx rows s)) := by
  induction rows with
  | nil => exact fun idx s => SameFooting.refl s
  | cons row rest ih =>
      intro idx s
      unfold recordSidxEntries
      cases hfault : flt.sidxRecord idx with
      | true => exact SameFooting.refl s
      | false =>
          have hrow : SameFooting s { s with sidxCollector := s.sidxCollector ++ [row] } :=
            ⟨rfl, rfl, rfl, rfl, rfl, rfl, rfl⟩
          exact hrow.trans (ih (idx + 1) _)

theorem commitBatch_error_sameFooting {flt : Faults} {keyed : Bool} {e : StoreError}
    (h : commitBatch flt keyed staged receipts s = .error e s') :
    SameFooting s s' := by
  unfold commitBatch at h
  rcases bind_eq_error.mp h with hintern | ⟨u, s₁, hintern, hrest⟩
  · cases hfault : flt.intern with
    | true =>
        rw [hfault] at hintern
        cases hintern
        exact SameFooting.refl s
    | false =>
        rw [hfault] at hintern
        cases hintern
  · have hs₁ : s₁ = s := by
      cases hfault : flt.intern with
      | true =>
          rw [hfault] at hintern
          cases hintern
      | false =>
          rw [hfault] at hintern
          cases hintern
          rfl
    subst hs₁
    rcases bind_eq_error.mp hrest with hrows | ⟨u', s₂, hrows, hmodify⟩
    · have hkeep := recordSidxEntries_sameFooting flt
        ((staged.zip (receipts.map (·.diskPos))).map fun p => p.1.sidxEntry p.2) 0 s₁
      rw [hrows] at hkeep
      exact hkeep
    · cases hmodify

/-- Indexing an event whose frame is written and whose sequence is above the durable point,
or whose frame is already fsynced. -/
theorem CoreHonest.index_entries (h : CoreHonest s) (entries : List IndexEntry)
    (hactive : s'.active = s.active) (hsealed : s'.sealed = s.sealed)
    (hsegment : s'.segmentId = s.segmentId) (hwatermark : s'.watermark = s.watermark)
    (hinserted : ∀ e ∈ s'.index.inserted, e ∈ entries ∨ e ∈ s.index.inserted)
    (hallocated : s.index.gate.allocated ≤ s'.index.gate.allocated)
    (hheld : ∀ e ∈ entries, Held s e)
    (hnew : ∀ e ∈ entries, e.globalSequence ≤ s.watermark.durable.globalSequence →
      OnSyncedBytes s e) : CoreHonest s' := by
  have hsegments : s'.segments = s.segments := by
    unfold WriterCore.segments
    rw [hactive, hsealed]
  refine ⟨by rw [hactive, hsegment, h.activeId], ?_, ?_, ?_, ?_⟩
  · intro e he
    unfold Held
    rw [hactive, hsealed]
    rcases hinserted e he with he | he
    · exact hheld e he
    · exact h.held e he
  · intro e he hle
    unfold OnSyncedBytes
    rw [hsegments]
    rw [hwatermark] at hle
    rcases hinserted e he with he | he
    · exact hnew e he hle
    · exact h.honest e he hle
  · rw [hwatermark]
    exact h.accepted_le.trans hallocated
  · rw [hwatermark]
    exact lt_of_lt_of_le h.durable_lt hallocated

theorem Placed.held {pos : DiskPos} (h : Placed s st pos) (hid : s.active.id = s.segmentId) :
    Held s (st.indexEntry pos) :=
  ⟨st.frame, describes_indexEntry st pos, .inr ⟨hid.trans h.2.symm, h.1⟩⟩

theorem commitStaged_coreHonest (flt : Faults) (keyed : Bool) (st : StagedCommittedEvent)
    (pos : DiskPos) (h : CoreHonest s) (hseq : st.globalSequence = s.index.gate.allocated)
    (hplaced : Placed s st pos) :
    Post (fun _ => CoreHonest) CoreHonest (commitStaged flt keyed st pos s) := by
  rcases commitStaged_eq flt keyed st pos s with ⟨e, he⟩ | hok
  · rw [he]
    exact h
  · rw [hok]
    refine h.index_entries [st.indexEntry pos] rfl rfl rfl rfl ?_
      (Nat.le_add_right _ 1) ?_ ?_
    · intro e he
      rcases List.mem_cons.mp he with rfl | he
      · exact .inl (List.mem_singleton.mpr rfl)
      · exact .inr he
    · intro e he
      obtain rfl := List.mem_singleton.mp he
      exact hplaced.held h.activeId
    · intro e he hle
      obtain rfl := List.mem_singleton.mp he
      have hlt := h.durable_lt
      rw [← hseq] at hlt
      exact absurd hle (Nat.not_le.mpr hlt)

/-- The frames of a batch are fsynced before its entries are indexed. -/
def PlacedSynced (s : WriterCore) (st : StagedCommittedEvent) (r : AppendReceipt) : Prop :=
  st.frame ∈ s.active.syncedFrames ∧ r.diskPos.segmentId = s.segmentId

theorem mem_batchEntries {P : StagedCommittedEvent → AppendReceipt → Prop}
    (h : List.Forall₂ P staged receipts) (he : e ∈ batchEntries staged receipts) :
    ∃ st r, P st r ∧ st ∈ staged ∧ e = st.indexEntry r.diskPos := by
  induction h with
  | nil => cases he
  | cons hp _ ih =>
      rcases List.mem_cons.mp he with rfl | he
      · exact ⟨_, _, hp, List.mem_cons_self, rfl⟩
      · obtain ⟨st, r, hst, hmem, heq⟩ := ih he
        exact ⟨st, r, hst, List.mem_cons_of_mem _ hmem, heq⟩

theorem commitBatch_coreHonest (flt : Faults) (keyed : Bool) (h : CoreHonest s)
    (hplaced : List.Forall₂ (PlacedSynced s) staged receipts) :
    Post (fun _ => CoreHonest) CoreHonest (commitBatch flt keyed staged receipts s) := by
  rcases commitBatch_cases flt keyed staged receipts s with ⟨e, s', he, hdisk⟩ | hok
  · -- a failing SIDX record leaves only rows behind
    have hrows : SameFooting s s' := commitBatch_error_sameFooting he
    rw [he]
    exact h.sameFooting hrows
  · rw [hok]
    refine h.index_entries (batchEntries staged receipts) rfl rfl rfl rfl ?_ ?_ ?_ ?_
    · intro e he
      change e ∈ (StoreIndex.insertBatch _ _).inserted at he
      rw [StoreIndex.insertBatch_inserted] at he
      rcases List.mem_append.mp he with he | he
      · exact .inl (List.mem_reverse.mp he)
      · exact .inr he
    · change _ ≤ (StoreIndex.insertBatch _ _).gate.allocated
      rw [StoreIndex.insertBatch_gate]
    · intro e he
      obtain ⟨st, r, hst, -, rfl⟩ := mem_batchEntries hplaced he
      exact Placed.held ⟨s.active.syncedFrames_subset_frames hst.1, hst.2⟩ h.activeId
    · intro e he _
      obtain ⟨st, r, hst, -, rfl⟩ := mem_batchEntries hplaced he
      refine ⟨s.active, List.mem_append_right _ (List.mem_singleton.mpr rfl), ?_, st.frame,
        hst.1, describes_indexEntry st _⟩
      exact h.activeId.trans hst.2.symm

/-! ### One step of the machine -/

/-- What each stage adds to the invariant of the state. -/
def StageHonest (s : WriterCore) : Stage → Prop
  | .idle | .committed .. | .batchCommitted .. => True
  | .accepted _ _ st _ | .rotated _ _ st _ => st.globalSequence = s.index.gate.allocated
  | .written _ _ st pos => st.globalSequence = s.index.gate.allocated ∧ Placed s st pos
  | .batchStaged _ plan | .batchRotated _ plan _ _ => BatchAhead s plan.staged
  | .batchOpen _ plan receipts remaining =>
      BatchAhead s plan.staged ∧ ∃ placed, plan.staged = placed ++ remaining ∧
        List.Forall₂ (fun st r => Placed s st r.diskPos) placed receipts
  | .batchClosed _ plan receipts =>
      BatchAhead s plan.staged ∧
        List.Forall₂ (fun st r => Placed s st r.diskPos) plan.staged receipts
  | .batchSynced _ plan receipts => List.Forall₂ (PlacedSynced s) plan.staged receipts

structure MachineHonest (m : WriterMachine) : Prop where
  core : CoreHonest m.core
  stage : StageHonest m.core m.stage

theorem mem_forall₂_left {α β : Type} {R : α → β → Prop} {xs : List α} {ys : List β}
    (h : List.Forall₂ R xs ys) {x : α} (hx : x ∈ xs) : ∃ y, R x y := by
  induction h with
  | nil => cases hx
  | cons hr _ ih =>
      rcases List.mem_cons.mp hx with rfl | hx
      · exact ⟨_, hr⟩
      · exact ih hx

/-- The invariant gives the property. -/
theorem MachineHonest.durableHonest {m : WriterMachine} (h : MachineHonest m) :
    DurableHonest m := by
  refine ⟨h.core.honest, ?_⟩
  obtain ⟨core, stage⟩ := m
  obtain ⟨hcore, hstage⟩ := h
  have hlt := hcore.durable_lt
  intro st hst hle
  have hsingle : ∀ st' : StagedCommittedEvent, st'.globalSequence = core.index.gate.allocated →
      st ∈ [st'] → ∃ seg ∈ core.segments, st.frame ∈ seg.syncedFrames := by
    intro st' hseq hmem
    obtain rfl := List.mem_singleton.mp hmem
    exact absurd hle (Nat.not_le.mpr (hseq ▸ hlt))
  cases stage with
  | idle | committed | batchCommitted => cases hst
  | accepted t keyed st' length => exact hsingle st' hstage hst
  | rotated t keyed st' length => exact hsingle st' hstage hst
  | written t keyed st' pos => exact hsingle st' hstage.1 hst
  | batchStaged t plan => exact absurd hle (Nat.not_le.mpr (hstage.ahead st hst))
  | batchRotated t plan marker length => exact absurd hle (Nat.not_le.mpr (hstage.ahead st hst))
  | batchOpen t plan receipts remaining =>
      exact absurd hle (Nat.not_le.mpr (hstage.1.ahead st hst))
  | batchClosed t plan receipts => exact absurd hle (Nat.not_le.mpr (hstage.1.ahead st hst))
  | batchSynced t plan receipts =>
      obtain ⟨r, hframe, -⟩ := mem_forall₂_left hstage hst
      exact ⟨core.active, List.mem_append_right _ (List.mem_singleton.mpr rfl), hframe⟩

/-- Publication ends a command. -/
theorem publish_phase {fenced : Bool} {first upTo : Nat} {point : HlcPoint}
    {ns : List Notification} {f : WriterCore → WriterCore} (hf : ∀ s, SameFooting s (f s)) :
    Triple CoreHonest
      (do publishCommitted fenced first upTo point ns; modify f; return Stage.idle)
      (fun stage s => CoreHonest s ∧ StageHonest s stage) CoreHonest := by
  refine Triple.bind (Q := fun _ => CoreHonest) ?_ fun _ => ?_
  · intro s hs
    have h := publishCommitted_sameFooting fenced first upTo point ns s
    exact h.mono (fun _ _ h => hs.sameFooting h) fun _ h => hs.sameFooting h
  · refine Triple.bind (Q := fun _ => CoreHonest)
      (Triple.modify fun s hs => hs.sameFooting (hf s)) fun _ => ?_
    exact Triple.pure fun s hs => ⟨hs, trivial⟩

theorem rotateForBatch_quiet {cfg : StoreConfig} {rt : Runtime} {t : Ticket} {plan : BatchPlan}
    (h : RotationQuiet cfg t.faults s) :
    Triple (· = s) (rotateForBatch cfg rt t plan) (fun _ s' => s' = s) (· = s) := by
  refine batchFailedAt_triple 0 ?_
  refine Triple.bind (liftExcept_keeps _) fun nowMs => ?_
  refine Triple.bind (liftExcept_keeps _) fun length => ?_
  refine Triple.bind (Q := fun _ => (· = s)) ?_ fun _ => Triple.pure fun s hs => hs
  rintro s' rfl
  change Post _ _ (maybeRotateSegment cfg t.faults s')
  rcases maybeRotateSegment_quiet h with hok | ⟨e, he⟩
  · rw [hok]
    rfl
  · rw [he]
    rfl

/-- Each phase of an honest command is honest, one case per stage. -/
theorem phase_honest (cfg : StoreConfig) (rt : Runtime) {m : WriterMachine}
    (h : MachineHonest m) (hstep : HonestStep cfg m .advance) :
    Post (fun stage s => CoreHonest s ∧ StageHonest s stage) CoreHonest
      (phase cfg rt m.stage m.core) := by
  obtain ⟨core, stage⟩ := m
  obtain ⟨hcore, hstage⟩ := h
  cases stage with
  | idle => exact ⟨hcore, trivial⟩
  | accepted t keyed st length =>
      -- a quiet rotation leaves the accepted event above the durable point
      have hquiet : RotationQuiet cfg t.faults core := hstep
      change Post _ _ ((maybeRotateSegment cfg t.faults >>= fun _ =>
        pure (Stage.rotated t keyed st length)) core)
      rcases maybeRotateSegment_quiet hquiet with hok | ⟨e, he⟩
      · rw [bind_of_ok hok]
        exact ⟨hcore, hstage⟩
      · rw [bind_eq_error.mpr (.inl he)]
        exact hcore
  | rotated t keyed st length =>
      refine (Triple.bind (Triple.onError (placeAppend_writing t st length) fun s hs => hs.core)
        fun pos => ?_) core (Writing.refl hcore)
      refine Triple.pure fun s hs => ⟨hs.1.core, ?_, hs.2⟩
      rw [hs.1.index]
      exact hstage
  | written t keyed st pos =>
      refine (Triple.bind (P := (· = core)) (Q := fun _ => CoreHonest) ?_ fun _ => ?_) core rfl
      · rintro s rfl
        exact commitStaged_coreHonest t.faults keyed st pos hcore hstage.1 hstage.2
      · exact Triple.pure fun s hs => ⟨hs, trivial⟩
  | committed t st pos => exact publish_phase (deliver_sameFooting t _ _) core hcore
  | batchStaged t plan =>
      have hquiet : RotationQuiet cfg t.faults core := hstep
      refine (Triple.bind (Triple.onError (rotateForBatch_quiet hquiet) ?_) fun p => ?_) core rfl
      · rintro s rfl
        exact hcore
      · refine Triple.pure ?_
        rintro s rfl
        exact ⟨hcore, hstage⟩
  | batchRotated t plan marker length =>
      refine (Triple.bind (Triple.onError (batchFailedAt_triple 0
        (writeFrame_writing t.faults 0 marker length)) fun s hs => hs.core) fun _ => ?_) core
        (Writing.refl hcore)
      refine Triple.pure fun s hs => ⟨hs.1.core, hstage.writing hs.1, [], rfl, .nil⟩
  | batchOpen t plan receipts remaining =>
      obtain ⟨hahead, placed, hsplit, hplaced⟩ := hstage
      cases remaining with
      | cons st rest =>
          refine (Triple.bind (Triple.onError (writeBatchEventFrame_writing rt t.faults
            receipts.length st) fun s hs => hs.core) fun r => ?_) core (Writing.refl hcore)
          refine Triple.pure fun s hs => ⟨hs.1.core, hahead.writing hs.1, placed ++ [st], ?_, ?_⟩
          · rw [hsplit, List.append_assoc]
            rfl
          · refine List.rel_append ?_ (.cons hs.2 .nil)
            exact hplaced.imp fun st r h => h.extend hs.1.ext
      | nil =>
          rw [List.append_nil] at hsplit
          refine (Triple.bind (Triple.onError (writeCommitMarker_writing cfg rt t.faults
            (plan.count + 1) plan.firstSeq plan.nowUs (plan.count - 1)) fun s hs => hs.core)
            fun _ => ?_) core (Writing.refl hcore)
          refine Triple.pure fun s hs => ⟨hs.core, hahead.writing hs, ?_⟩
          rw [hsplit]
          exact hplaced.imp fun st r h => h.extend hs.ext
  | batchClosed t plan receipts =>
      obtain ⟨hahead, hplaced⟩ := hstage
      have hsync := syncActiveSegment_coreHonest t.faults hcore (.inr hahead.covered)
      refine (Triple.bind (P := (· = core)) (Q := fun _ s => CoreHonest s ∧
        s.active = core.active.sync ∧ s.segmentId = core.segmentId) ?_ fun _ => ?_) core rfl
      · rintro s rfl
        exact post_syncBatch hsync _
      · refine Triple.pure fun s hs => ⟨hs.1, ?_⟩
        refine hplaced.imp fun st r h => ⟨?_, ?_⟩
        · rw [hs.2.1, Segment.sync_syncedFrames]
          exact h.1
        · rw [hs.2.2]
          exact h.2
  | batchSynced t plan receipts =>
      refine (Triple.bind (P := (· = core)) (Q := fun _ => CoreHonest) ?_ fun _ => ?_) core rfl
      · rintro s rfl
        exact commitBatch_coreHonest t.faults plan.keyed hcore hstage
      · exact Triple.pure fun s hs => ⟨hs, trivial⟩
  | batchCommitted t plan receipts => exact publish_phase (deliver_sameFooting t _ _) core hcore

theorem SyncCovered.sameFooting {fails : Bool} (h : SyncCovered fails s) (hs : SameFooting s s') :
    SyncCovered fails s' := by
  unfold SyncCovered
  rw [hs.accepted, hs.allocated]
  exact h

/-- What the service commands do to an honest core. -/
theorem coreHonest_service : ServiceRules CoreHonest SyncCovered where
  reply respond reply hs := hs.sameFooting (sendReply_sameFooting respond reply _)
  beginFence token hs := hs.sameFooting (beginVisibilityFence_sameFooting token _)
  commitFence token hs := hs.sameFooting (commitVisibilityFence_sameFooting token _)
  cancelFence flt token hs := hs.sameFooting (cancelVisibilityFence_sameFooting flt token _)
  autoCancel flt hs := hs.sameFooting (autoCancelFenceOnShutdown_sameFooting flt _)
  footer hs := by
    refine hs.extend ⟨rfl, le_refl _, rfl, ?_, ?_, rfl, rfl, rfl⟩ hs.accepted_le
    · exact List.Subset.refl _
    · exact List.Subset.refl _
  sync flt hs hcovered := by
    refine Post.finalState (I := CoreHonest) ?_
    have hsync := syncActiveSegment_coreHonest flt hs hcovered
    exact hsync.mono (fun _ _ hsync => hsync.1) fun _ hsync => hsync
  syncAfterCancel _ flt h := h.sameFooting (autoCancelFenceOnShutdown_sameFooting flt _)
  syncAfterFooter _ h := h

/-- The rules of the machine: the phases stop between acceptance and write only on a quiet
rotation. -/
def PhaseQuiet (cfg : StoreConfig) (s : WriterCore) (stage : Stage) : Prop :=
  HonestStep cfg ⟨s, stage⟩ .advance

theorem honestRules (cfg : StoreConfig) (rt : Runtime) :
    MachineRules cfg rt CoreHonest StageHonest (PhaseQuiet cfg) SyncCovered where
  service := coreHonest_service
  idle _ := trivial
  deliver t reply pending hs := hs.sameFooting (deliver_sameFooting t reply pending _)
  startAppend t req := by
    refine Triple.onReturn (startAppend_coreHonest rt t req) ?_
    exact fun r s hs => ⟨hs.1, fun keyed st length h => hs.2 st length h⟩
  startBatch := startBatch_coreHonest cfg rt
  phase hcore hstage hquiet := phase_honest cfg rt (m := ⟨_, _⟩) ⟨hcore, hstage⟩ hquiet

/-- One honest step keeps the machine honest. -/
theorem machineStep_honest (cfg : StoreConfig) (rt : Runtime) (m : WriterMachine)
    (i : MachineStep) (h : MachineHonest m) (hstep : HonestStep cfg m i) :
    MachineHonest (machineStep cfg rt m i) := by
  have hallowed : StepAllowed SyncCovered (PhaseQuiet cfg) m i := by
    cases i with
    | advance => exact hstep
    | start action => cases action <;> exact hstep
  obtain ⟨hcore, hstage⟩ := (honestRules cfg rt).machineStep i ⟨h.core, h.stage⟩ hallowed
  exact ⟨hcore, hstage⟩

theorem Bootstrapped.machineHonest (h : Bootstrapped s) :
    MachineHonest ⟨s, .idle⟩ where
  core := by
    refine ⟨h.activeId, ?_, fun e he _ => h.recovered e he, ?_, h.durable_lt⟩
    · intro e he
      obtain ⟨seg, hseg, hid, f, hf, hdesc⟩ := h.recovered e he
      rcases List.mem_append.mp hseg with hsealed | hactive
      · exact ⟨f, hdesc, .inl ⟨seg, hsealed, hid, hf⟩⟩
      · obtain rfl := List.mem_singleton.mp hactive
        exact ⟨f, hdesc, .inr ⟨hid, s.active.syncedFrames_subset_frames hf⟩⟩
    · rw [h.accepted_eq]
      exact h.durable_lt.le
  stage := trivial

/-- From an opened store, as long as no segment is rotated away between an acceptance and
its write and no sync runs over a failed acceptance, the durable point is honest in every
state the writer passes through. -/
theorem durable_honest_of_covered_steps (cfg : StoreConfig) (rt : Runtime) (s : WriterCore)
    (hopen : Bootstrapped s) (steps : List MachineStep)
    (hsteps : Guarded (machineStep cfg rt) (HonestStep cfg) ⟨s, .idle⟩ steps) :
    DurableHonest (run (machineStep cfg rt) ⟨s, .idle⟩ steps) :=
  (run_invariant (fun m i hm hi => machineStep_honest cfg rt m i hm hi) steps ⟨s, .idle⟩
    hopen.machineHonest hsteps).durableHonest

/-- The steps of one append taken from the queue, phase by phase. -/
def appendSteps (req : AppendRequest) : List MachineStep :=
  [.start (.command .main ⟨.append req 0, .none⟩), .advance, .advance, .advance, .advance]

/-- A first append fills the segment; the second one rotates it away after its acceptance,
which declares it durable although its frame only reaches the new segment afterwards. -/
theorem rotation_overstates_durable :
    ¬∀ (cfg : StoreConfig) (rt : Runtime) (s : WriterCore) (steps : List MachineStep),
      Bootstrapped s → DurableHonest (run (machineStep cfg rt) ⟨s, .idle⟩ steps) := by
  intro h
  have hopen : Bootstrapped (freshStore .small .unsigned) :=
    ⟨by decide +kernel, by decide +kernel, by decide +kernel, by decide +kernel⟩
  have hdurable := h .small .unsigned (freshStore .small .unsigned)
    (appendSteps (plainRequest "account:7" 11 900) ++ appendSteps (plainRequest "account:7" 12 8))
    hopen
  exact absurd hdurable (by decide +kernel)

/-- The theorem on a fresh store: one append, then a sync that covers it. -/
theorem durable_honest_after_append_sync :
    Bootstrapped (freshStore .small .unsigned) ∧
      DurableHonest (run (machineStep .small .unsigned) ⟨freshStore .small .unsigned, .idle⟩
        (appendSteps (plainRequest "account:7" 11 8) ++
          [.start (.command .main ⟨.sync 1, .none⟩)])) := by
  have hopen : Bootstrapped (freshStore .small .unsigned) :=
    ⟨by decide +kernel, by decide +kernel, by decide +kernel, by decide +kernel⟩
  refine ⟨hopen, durable_honest_of_covered_steps .small .unsigned _ hopen _ ?_⟩
  decide +kernel

end Batpak.Store
