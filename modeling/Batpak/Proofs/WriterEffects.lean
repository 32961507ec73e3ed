/-
Module: Batpak.Proofs.WriterEffects
Purpose: What each writer operation can do to the state: only the commit point inserts, and
  exactly the staged events.
Trusted boundary: none
Main exports: commitAppend_cases, handleAppend_cases
-/
import Batpak.Store.WriterLoop
import Batpak.Util.Scan

namespace Batpak.Store

open Batpak.Util

variable {s s' : WriterCore} {α : Type} {I P E : WriterCore → Prop} {rt : Runtime}

/-- The segment files and the rows collected for the next footer. -/
structure DiskView where
  sealed : List Segment
  active : Segment
  segmentId : Nat
  collector : List SidxEntry

def WriterCore.disk (s : WriterCore) : DiskView :=
  ⟨s.sealed, s.active, s.segmentId, s.sidxCollector⟩

/-- `s'` differs from `s` at most in files, watermarks and collected SIDX rows. -/
structure DiskOnly (s s' : WriterCore) : Prop where
  index : s'.index = s.index
  fenceLedger : s'.fenceLedger = s.fenceLedger
  hiddenRanges : s'.hiddenRanges = s.hiddenRanges
  replies : s'.replies = s.replies
  fenceCount : s'.fenceCount = s.fenceCount
  committedFences : s'.committedFences = s.committedFences

theorem DiskOnly.refl (s : WriterCore) : DiskOnly s s :=
  ⟨rfl, rfl, rfl, rfl, rfl, rfl⟩

theorem DiskOnly.trans {s'' : WriterCore} (h : DiskOnly s s') (h' : DiskOnly s' s'') :
    DiskOnly s s'' :=
  ⟨h'.index.trans h.index, h'.fenceLedger.trans h.fenceLedger,
    h'.hiddenRanges.trans h.hiddenRanges, h'.replies.trans h.replies,
    h'.fenceCount.trans h.fenceCount, h'.committedFences.trans h.committedFences⟩

/-! ### The disk phases -/

section DiskPhases

variable {s₀ : WriterCore}

theorem liftExcept_keeps (r : Except StoreError α) :
    Keeps I (liftExcept r) := by
  cases r with
  | ok a => exact Keeps.pure a
  | error e => exact Keeps.throw e

/-- A check that fails leaves the state as it is. -/
theorem checked {β : Type} {r : Except StoreError α} {f : α → WriterM β} {R : β → WriterCore → Prop}
    (hE : ∀ s, P s → E s) (hf : ∀ a, Triple P (f a) R E) : Triple P (liftExcept r >>= f) R E :=
  Triple.bind (Triple.onError (liftExcept_keeps r) hE) hf

theorem liftExcept_eq_ok {r : Except StoreError α} {a : α} (h : liftExcept r s = .ok a s') :
    r = .ok a ∧ s' = s := by
  cases r with
  | ok b =>
      cases h
      exact ⟨rfl, rfl⟩
  | error e => cases h

theorem liftExcept_of_ok {r : Except StoreError α} {a : α} (h : r = .ok a) (s : WriterCore) :
    liftExcept r s = .ok a s := by
  rw [h]
  rfl

theorem liftExcept_of_error {r : Except StoreError α} {e : StoreError} (h : r = .error e)
    (s : WriterCore) : liftExcept r s = .error e s := by
  rw [h]
  rfl

/-- A pure check leaves the state alone and returns what it computed. -/
theorem liftExcept_triple (r : Except StoreError α) :
    Triple I (liftExcept r) (fun a s => r = .ok a ∧ I s) I := by
  cases r with
  | ok a => exact Triple.pure fun s hs => ⟨rfl, hs⟩
  | error e => exact Triple.throw fun s hs => hs

theorem writeFrame_diskOnly (flt : Faults) (i : Nat) (f : Frame) (length : Nat) :
    Keeps (DiskOnly s₀) (writeFrame flt i f length) := by
  intro s hs
  unfold writeFrame
  rcases s.active.writeFrame f length (flt.write i) with ⟨_ | _, seg⟩
  · exact hs.trans ⟨rfl, rfl, rfl, rfl, rfl, rfl⟩
  · exact hs.trans ⟨rfl, rfl, rfl, rfl, rfl, rfl⟩

theorem maybeRotateSegment_diskOnly (cfg : StoreConfig) (flt : Faults) :
    Keeps (DiskOnly s₀) (maybeRotateSegment cfg flt) := by
  intro s hs
  unfold maybeRotateSegment
  split
  · split
    · exact hs
    · split
      · exact hs
      · exact hs.trans ⟨rfl, rfl, rfl, rfl, rfl, rfl⟩
  · exact hs

theorem syncActiveSegment_diskOnly (flt : Faults) :
    Keeps (DiskOnly s₀) (syncActiveSegment flt) := by
  intro s hs
  unfold syncActiveSegment
  split
  · exact hs
  · exact hs.trans ⟨rfl, rfl, rfl, rfl, rfl, rfl⟩

theorem writeStaged_diskOnly (flt : Faults) (i : Nat) (st : StagedCommittedEvent) (length : Nat) :
    Keeps (DiskOnly s₀) (writeStaged flt i st length) := by
  refine Keeps.bind (writeFrame_diskOnly flt i st.frame length) fun offset => ?_
  refine Keeps.bind (Triple.modify fun s hs => hs.trans ⟨rfl, rfl, rfl, rfl, rfl, rfl⟩) fun _ => ?_
  exact Keeps.pure offset

/-- Reporting a failure against an item does not change what a success establishes. -/
theorem batchFailedAt_triple {Q : α → WriterCore → Prop} {m : WriterM α} (idx : Nat)
    (h : Triple P m Q E) :
    Triple P (batchFailedAt idx m) Q E := by
  intro s hs
  have h' := h s hs
  unfold batchFailedAt
  cases hm : m s with
  | ok a s' =>
      rw [hm] at h'
      exact h'
  | error e s' =>
      rw [hm] at h'
      exact h'

theorem post_syncBatch {Q : Unit → WriterCore → Prop} {flt : Faults}
    (h : Post Q E (syncActiveSegment flt s)) (count : Nat) :
    Post Q E (syncBatch flt count s) := by
  unfold syncBatch
  cases hm : syncActiveSegment flt s with
  | ok a s' =>
      rw [hm] at h
      exact h
  | error e s' =>
      rw [hm] at h
      exact h

theorem syncBatch_triple {Q : Unit → WriterCore → Prop} {flt : Faults}
    (h : Triple P (syncActiveSegment flt) Q E) (count : Nat) : Triple P (syncBatch flt count) Q E :=
  fun s hs => post_syncBatch (h s hs) count

/-- Writing a marker: any invariant of rotation and of frame writes survives it. -/
theorem writeBatchMarkerFrame_keeps (cfg : StoreConfig) (rt : Runtime) (flt : Faults)
    (i batchId : Nat) (kind : EventKind) (payloadSize : Nat) (nowUs : Int) (item : Nat)
    (allowRotation : Bool) (hrotate : Keeps I (maybeRotateSegment cfg flt))
    (hwrite : ∀ f length, Keeps I (writeFrame flt i f length)) :
    Keeps I (writeBatchMarkerFrame cfg rt flt i batchId kind payloadSize nowUs item
      allowRotation) := by
  refine batchFailedAt_triple item ?_
  refine Keeps.bind (liftExcept_keeps _) fun nowMs => ?_
  refine Keeps.bind (liftExcept_keeps _) fun length => ?_
  refine Keeps.bind ?_ fun _ => hwrite _ _
  cases allowRotation with
  | true => exact hrotate
  | false => exact Keeps.pure false

/-- Writing a staged frame puts it into the active segment. -/
theorem writeStaged_triple (flt : Faults) (i : Nat) (st : StagedCommittedEvent) (length : Nat) :
    Triple (DiskOnly s₀) (writeStaged flt i st length)
      (fun _ s => DiskOnly s₀ s ∧ st.frame ∈ s.active.frames) (DiskOnly s₀) := by
  have hframe : Triple (DiskOnly s₀) (writeFrame flt i st.frame length)
      (fun _ s => DiskOnly s₀ s ∧ st.frame ∈ s.active.frames) (DiskOnly s₀) := by
    intro s hs
    unfold writeFrame
    cases hw : s.active.writeFrame st.frame length (flt.write i) with
    | mk r seg =>
        cases r with
        | ok offset =>
            exact ⟨hs.trans ⟨rfl, rfl, rfl, rfl, rfl, rfl⟩, Segment.mem_frames_of_writeFrame_ok hw⟩
        | error e => exact hs.trans ⟨rfl, rfl, rfl, rfl, rfl, rfl⟩
  refine Triple.bind hframe fun offset => ?_
  refine Triple.bind (Triple.modify fun s hs => ?_) fun _ => Triple.pure fun s hs => hs
  exact ⟨hs.1.trans ⟨rfl, rfl, rfl, rfl, rfl, rfl⟩, hs.2⟩

/-- What a successful preparation of a single append has established. -/
structure Prepared (rt : Runtime) (req : AppendRequest) (latest : Option IndexEntry)
    (fenced : Bool) (s₀ : WriterCore) (st : StagedCommittedEvent) (pos : DiskPos)
    (s : WriterCore) : Prop where
  staged : stageAppend rt req latest s₀.segmentId s₀.index.globalSequence
    (fenceIdentity s₀ fenced) = .ok st
  diskOnly : DiskOnly s₀ s
  written : st.frame ∈ s.active.frames
  segment : pos.segmentId = s.segmentId

theorem prepareAppend_triple (cfg : StoreConfig) (rt : Runtime) (flt : Faults)
    (req : AppendRequest) (latest : Option IndexEntry) (fenced : Bool) :
    Triple (· = s₀) (prepareAppend cfg rt flt req latest fenced)
      (fun p s => Prepared rt req latest fenced s₀ p.1 p.2 s) (DiskOnly s₀) := by
  have haccept : Triple (· = s₀) (acceptAppend rt req latest fenced)
      (fun st s => stageAppend rt req latest s₀.segmentId s₀.index.globalSequence
        (fenceIdentity s₀ fenced) = .ok st ∧ DiskOnly s₀ s) (DiskOnly s₀) := by
    rintro s rfl
    unfold acceptAppend
    split
    · exact DiskOnly.refl s
    · rename_i st hst
      exact ⟨hst, ⟨rfl, rfl, rfl, rfl, rfl, rfl⟩⟩
  refine Triple.bind haccept fun st => ?_
  intro s ⟨hst, hs⟩
  -- from here on the staged event is fixed and only the disk changes
  refine (Triple.bind (liftExcept_keeps _) fun length => ?_ :
    Triple (DiskOnly s₀) _ _ _) s hs
  refine Triple.bind (maybeRotateSegment_diskOnly cfg flt) fun _ => ?_
  refine Triple.bind (writeStaged_triple flt 0 st length) fun offset => ?_
  refine checked (fun s hs => hs.1) fun _ => ?_
  refine Triple.bind (Q := fun t s => t = s ∧ DiskOnly s₀ s ∧ st.frame ∈ s.active.frames)
    (Triple.get fun s hs => ⟨rfl, hs⟩) fun t => ?_
  refine Triple.pure ?_
  rintro s ⟨rfl, hs, hframe⟩
  exact ⟨hst, hs, hframe, rfl⟩

end DiskPhases

/-! ### The single append -/

/-- `s'` has committed nothing that `s` had not: the allocator may have moved by `n`
burned sequences and stale idempotency keys may have aged out. -/
structure Uncommitted (n : Nat) (s s' : WriterCore) : Prop where
  inserted : s'.index.inserted = s.index.inserted
  latest : s'.index.latest = s.index.latest
  gate : s'.index.gate = s.index.gate.reserve n
  idemp : s'.index.idemp = s.index.idemp ∨
    s'.index.idemp = s.index.idemp.evict s.index.globalSequence
  fenceLedger : s'.fenceLedger = s.fenceLedger
  hiddenRanges : s'.hiddenRanges = s.hiddenRanges
  replies : s'.replies = s.replies
  fenceCount : s'.fenceCount = s.fenceCount
  committedFences : s'.committedFences = s.committedFences

theorem Uncommitted.refl (s : WriterCore) : Uncommitted 0 s s :=
  ⟨rfl, rfl, rfl, .inl rfl, rfl, rfl, rfl, rfl, rfl⟩

theorem Uncommitted.diskOnly {n : Nat} {s₁ : WriterCore} (h : Uncommitted n s s₁)
    (h' : DiskOnly s₁ s') : Uncommitted n s s' where
  inserted := by rw [h'.index, h.inserted]
  latest := by rw [h'.index, h.latest]
  gate := by rw [h'.index, h.gate]
  idemp := by rw [h'.index]; exact h.idemp
  fenceLedger := h'.fenceLedger.trans h.fenceLedger
  hiddenRanges := h'.hiddenRanges.trans h.hiddenRanges
  replies := h'.replies.trans h.replies
  fenceCount := h'.fenceCount.trans h.fenceCount
  committedFences := h'.committedFences.trans h.committedFences

theorem Uncommitted.globalSequence (h : Uncommitted 0 s s') :
    s'.index.globalSequence = s.index.globalSequence :=
  congrArg (·.allocated) h.gate

theorem fenceIdentity_congr (h : s'.fenceLedger = s.fenceLedger) (fenced : Bool) :
    fenceIdentity s' fenced = fenceIdentity s fenced := by
  unfold fenceIdentity
  rw [h]

/-- The state right after the commit point of a single append. -/
def commitState (keyed : Bool) (st : StagedCommittedEvent) (pos : DiskPos) (s : WriterCore) :
    WriterCore :=
  { s with
    sidxCollector := s.sidxCollector ++ [st.sidxEntry pos]
    index := ({ s.index with
      idemp := if keyed then
          s.index.idemp.record (.fromIndexEntry (st.indexEntry pos) st.globalSequence)
        else s.index.idemp } : StoreIndex).insert (st.indexEntry pos) }

theorem commitStaged_eq (flt : Faults) (keyed : Bool) (st : StagedCommittedEvent) (pos : DiskPos)
    (s : WriterCore) :
    (∃ e, commitStaged flt keyed st pos s = .error e s) ∨
      commitStaged flt keyed st pos s = .ok () (commitState keyed st pos s) := by
  unfold commitStaged
  split
  · exact .inl ⟨_, rfl⟩
  · split
    · exact .inl ⟨_, rfl⟩
    · exact .inr rfl

/-- The tail of a single append after its commit point. -/
def publishAppend (fenced : Bool) (st : StagedCommittedEvent) (pos : DiskPos) :
    WriterM AppendReceipt := do
  publishCommitted fenced st.globalSequence (st.globalSequence + 1) st.point [st.notification]
  return { st.receipt with diskPos := pos }

/-- Either nothing was committed, or the append ran to its commit point and the rest is
publication. -/
theorem commitAppend_cases (cfg : StoreConfig) (rt : Runtime) (flt : Faults)
    (req : AppendRequest) (latest : Option IndexEntry) (fenced : Bool) (s : WriterCore) :
    (∃ e s', commitAppend cfg rt flt req latest fenced s = .error e s' ∧ DiskOnly s s') ∨
      ∃ st pos s₁, Prepared rt req latest fenced s st pos s₁ ∧
        commitAppend cfg rt flt req latest fenced s =
          publishAppend fenced st pos (commitState req.idempotencyKey.isSome st pos s₁) := by
  have hprep := @prepareAppend_triple s cfg rt flt req latest fenced s rfl
  unfold commitAppend
  cases hp : prepareAppend cfg rt flt req latest fenced s with
  | error e s' =>
      rw [hp] at hprep
      refine .inl ⟨e, s', ?_, hprep⟩
      exact bind_eq_error.mpr (.inl hp)
  | ok p s₁ =>
      obtain ⟨st, pos⟩ := p
      rw [hp] at hprep
      rw [bind_of_ok hp]
      rcases commitStaged_eq flt req.idempotencyKey.isSome st pos s₁ with ⟨e, he⟩ | hok
      · refine .inl ⟨e, s₁, bind_eq_error.mpr (.inl he), hprep.diskOnly⟩
      · refine .inr ⟨st, pos, s₁, hprep, ?_⟩
        exact bind_of_ok hok

/-- The idempotency short circuit answers from the map or the visible index, or admits
the key and leaves the index alone up to aged-out keys. -/
theorem tryIdempotencyReplay_cases (rt : Runtime) (key : Nat) (s : WriterCore) :
    (∃ durable, s.index.idemp.get key = some durable ∧
      tryIdempotencyReplay rt key s = .ok (some (receiptOfIdemp rt durable)) s) ∨
    (∃ entry, s.index.idemp.get key = none ∧ s.index.getById key = some entry ∧
      tryIdempotencyReplay rt key s = .ok (some (receiptOfEntry rt entry)) s) ∨
    (s.index.idemp.get key = none ∧ s.index.getById key = none ∧
      ((∃ e s', tryIdempotencyReplay rt key s = .error e s' ∧ Uncommitted 0 s s' ∧
          s'.disk = s.disk) ∨
        ∃ s', tryIdempotencyReplay rt key s = .ok none s' ∧ Uncommitted 0 s s' ∧
          s'.disk = s.disk)) := by
  unfold tryIdempotencyReplay
  cases hmap : s.index.idemp.get key with
  | some durable => exact .inl ⟨durable, rfl, rfl⟩
  | none =>
      right
      cases hid : s.index.getById key with
      | some entry => exact .inl ⟨entry, rfl, rfl, rfl⟩
      | none =>
          refine .inr ⟨rfl, rfl, ?_⟩
          -- admission either keeps the map or evicts the keys outside the window
          have hadmit : (s.index.idemp.admitNewKey key s.index.globalSequence).2 = s.index.idemp ∨
              (s.index.idemp.admitNewKey key s.index.globalSequence).2 =
                s.index.idemp.evict s.index.globalSequence := by
            unfold IdempotencyStore.admitNewKey IdempotencyStore.admitUniqueNewCount
            grind
          cases hres : s.index.idemp.admitNewKey key s.index.globalSequence with
          | mk r idemp =>
              rw [hres] at hadmit
              have hquiet : Uncommitted 0 s { s with index := { s.index with idemp := idemp } } :=
                ⟨rfl, rfl, rfl, hadmit, rfl, rfl, rfl, rfl, rfl⟩
              cases r with
              | ok u => exact .inr ⟨_, rfl, hquiet, rfl⟩
              | error e => exact .inl ⟨e, _, rfl, hquiet, rfl⟩

/-- The receipt a keyed retry is answered with when its key is already known. -/
def Replays (rt : Runtime) (ix : StoreIndex) (key : Nat) (receipt : AppendReceipt) : Prop :=
  (∃ durable, ix.idemp.get key = some durable ∧ receipt = receiptOfIdemp rt durable) ∨
    ∃ entry, ix.idemp.get key = none ∧ ix.getById key = some entry ∧
      receipt = receiptOfEntry rt entry

/-- What staging a single append decides about its event. -/
theorem stageAppend_ok {req : AppendRequest} {latest : Option IndexEntry}
    {segmentId globalSeq : Nat} {fence : Option Nat} {st : StagedCommittedEvent}
    (h : stageAppend rt req latest segmentId globalSeq fence = .ok st) :
    checkedNextClock (latest.map (·.clock)) req.coord.entity = .ok st.frame.clock ∧
      st.frame.coord = req.coord ∧ st.frame.dagLane = req.dagLane ∧
      st.frame.eventId = req.eventId ∧ st.globalSequence = globalSeq ∧
      st.frame.provenance = some ⟨globalSeq, fence⟩ := by
  obtain ⟨clock, hclock, h⟩ := bindOk_iff.mp h
  obtain ⟨rawMs, -, h⟩ := bindOk_iff.mp h
  cases h
  exact ⟨hclock, rfl, rfl, rfl, rfl, rfl⟩

/-- What the receipt of a staged event reports is what its frame stores. -/
def StagedCommittedEvent.Reported (st : StagedCommittedEvent) : Prop :=
  st.receipt.eventId = st.frame.eventId ∧ st.receipt.globalSequence = st.globalSequence ∧
    st.frame.provenance.map (·.sequence) = some st.receipt.globalSequence ∧
    st.receipt.contentHash = st.frame.hashChain.eventHash ∧
    st.receipt.extensions = st.frame.receiptExtensions

theorem stageAppend_reported {req : AppendRequest} {latest : Option IndexEntry}
    {segmentId globalSeq : Nat} {fence : Option Nat} {st : StagedCommittedEvent}
    (h : stageAppend rt req latest segmentId globalSeq fence = .ok st) : st.Reported := by
  obtain ⟨clock, -, h⟩ := bindOk_iff.mp h
  obtain ⟨rawMs, -, h⟩ := bindOk_iff.mp h
  cases h
  obtain ⟨hid, hsequence, -, hhash⟩ := signAppendReceipt_keeps rt _ req.coord req.kind _
  exact ⟨hid, hsequence, congrArg some hsequence.symm, hhash, rfl⟩

theorem stageItem_reported (ctx : BatchContext) (idx : Nat) (item : BatchAppendItem)
    (state : BatchEntityState) (causation : Option Nat) :
    (stageItem rt ctx idx item state causation).Reported := by
  obtain ⟨hid, hsequence, -, hhash⟩ := signAppendReceipt_keeps rt _ item.coord item.kind _
  exact ⟨hid, hsequence, congrArg some hsequence.symm, hhash, rfl⟩

/-- A key neither the durable map nor the visible index knows. -/
def UnknownKey (ix : StoreIndex) (key : Nat) : Prop :=
  ix.idemp.get key = none ∧ ix.getById key = none

/-- The chain head a request continues. -/
def AppendRequest.latest (req : AppendRequest) (ix : StoreIndex) : Option IndexEntry :=
  ix.getLatestCommitted req.coord.entity req.dagLane

/-- How a single append starts: it is over before any platform call, or goes on to commit. -/
inductive AppendStart (rt : Runtime) (req : AppendRequest) (fenced : Bool) (s : WriterCore) :
    Prop where
  | failed (e : StoreError) (s' : WriterCore) (quiet : Uncommitted 0 s s')
      (disk : s'.disk = s.disk)
      (run : ∀ cfg flt, handleAppend cfg rt flt req fenced s = .error e s')
  | replayed (key : Nat) (receipt : AppendReceipt)
      (keyed : req.idempotencyKey = some key)
      (guarded : checkExpectedSequence req (req.latest s.index) = .ok ())
      (known : Replays rt s.index key receipt)
      (run : ∀ cfg flt, handleAppend cfg rt flt req fenced s = .ok receipt s)
  | commits (s₀ : WriterCore) (quiet : Uncommitted 0 s s₀) (disk : s₀.disk = s.disk)
      (guarded : checkExpectedSequence req (req.latest s.index) = .ok ())
      (fresh : ∀ key, req.idempotencyKey = some key → UnknownKey s.index key)
      (run : ∀ cfg flt, handleAppend cfg rt flt req fenced s =
        commitAppend cfg rt flt req (req.latest s.index) fenced s₀)

theorem handleAppend_starts (rt : Runtime) (req : AppendRequest) (fenced : Bool)
    (s : WriterCore) : AppendStart rt req fenced s := by
  have hget : (MonadState.get : WriterM WriterCore) s = .ok s s := rfl
  cases hcas : checkExpectedSequence req (req.latest s.index) with
  | error e =>
      refine .failed e s (Uncommitted.refl s) rfl fun cfg flt => ?_
      unfold handleAppend
      rw [bind_of_ok hget]
      exact bind_eq_error.mpr (.inl (liftExcept_of_error hcas s))
  | ok u =>
      cases hkey : req.idempotencyKey with
      | none =>
          refine .commits s (Uncommitted.refl s) rfl hcas (by simp [hkey]) fun cfg flt => ?_
          unfold handleAppend
          rw [bind_of_ok hget, hkey]
          exact bind_of_ok (liftExcept_of_ok hcas s)
      | some key =>
          -- what follows the check, whatever the lookup of the key answers
          have hguarded : ∀ cfg flt, ∃ resume : Option AppendReceipt → WriterM AppendReceipt,
              handleAppend cfg rt flt req fenced s = (tryIdempotencyReplay rt key >>= resume) s ∧
              (∀ receipt, resume (some receipt) = pure receipt) ∧
              resume none = commitAppend cfg rt flt req (req.latest s.index) fenced := by
            intro cfg flt
            unfold handleAppend
            rewrite [bind_of_ok hget, hkey]
            exact ⟨_, bind_of_ok (liftExcept_of_ok hcas s), fun _ => rfl, rfl⟩
          rcases tryIdempotencyReplay_cases rt key s with ⟨durable, hmap, hrun⟩ |
              ⟨entry, hmap, hid, hrun⟩ | ⟨hmap, hid, ⟨e, s', hrun, hquiet, hdisk⟩ |
                ⟨s', hrun, hquiet, hdisk⟩⟩
          · refine .replayed key _ hkey hcas (.inl ⟨durable, hmap, rfl⟩) fun cfg flt => ?_
            obtain ⟨resume, happend, hknown, -⟩ := hguarded cfg flt
            rw [happend, bind_of_ok hrun, hknown]
            rfl
          · refine .replayed key _ hkey hcas (.inr ⟨entry, hmap, hid, rfl⟩) fun cfg flt => ?_
            obtain ⟨resume, happend, hknown, -⟩ := hguarded cfg flt
            rw [happend, bind_of_ok hrun, hknown]
            rfl
          · refine .failed e s' hquiet hdisk fun cfg flt => ?_
            obtain ⟨resume, happend, -, -⟩ := hguarded cfg flt
            rw [happend, bind_eq_error.mpr (.inl hrun)]
          · have hunknown : ∀ k, req.idempotencyKey = some k → UnknownKey s.index k := by
              intro k hk
              cases hkey.symm.trans hk
              exact ⟨hmap, hid⟩
            refine .commits s' hquiet hdisk hcas hunknown fun cfg flt => ?_
            obtain ⟨resume, happend, -, hnone⟩ := hguarded cfg flt
            rw [happend, bind_of_ok hrun, hnone]

/-- Everything a single append can do. -/
inductive AppendCases (rt : Runtime) (req : AppendRequest) (fenced : Bool) (s : WriterCore) :
    EStateM.Result StoreError WriterCore AppendReceipt → Prop where
  | failed (e : StoreError) (s' : WriterCore) (quiet : Uncommitted 0 s s') :
      AppendCases rt req fenced s (.error e s')
  | replayed (key : Nat) (receipt : AppendReceipt)
      (keyed : req.idempotencyKey = some key)
      (guarded : checkExpectedSequence req (req.latest s.index) = .ok ())
      (known : Replays rt s.index key receipt) :
      AppendCases rt req fenced s (.ok receipt s)
  | committed (st : StagedCommittedEvent) (pos : DiskPos) (s₀ s₁ : WriterCore)
      (quiet : Uncommitted 0 s s₀)
      (guarded : checkExpectedSequence req (req.latest s.index) = .ok ())
      (fresh : ∀ key, req.idempotencyKey = some key → UnknownKey s.index key)
      (sameSegment : s₀.segmentId = s.segmentId)
      (prepared : Prepared rt req (req.latest s.index) fenced s₀ st pos s₁) :
      AppendCases rt req fenced s
        (publishAppend fenced st pos (commitState req.idempotencyKey.isSome st pos s₁))

theorem handleAppend_cases (cfg : StoreConfig) (rt : Runtime) (flt : Faults)
    (req : AppendRequest) (fenced : Bool) (s : WriterCore) :
    AppendCases rt req fenced s (handleAppend cfg rt flt req fenced s) := by
  rcases handleAppend_starts rt req fenced s with ⟨e, s', hquiet, -, hrun⟩ |
    ⟨key, receipt, hkeyed, hguarded, hknown, hrun⟩ |
    ⟨s₀, hquiet, hdisk, hguarded, hfresh, hrun⟩ <;> rw [hrun]
  · exact .failed e s' hquiet
  · exact .replayed key receipt hkeyed hguarded hknown
  · rcases commitAppend_cases cfg rt flt req (req.latest s.index) fenced s₀ with
      ⟨e, s', he, hs'⟩ | ⟨st, pos, s₁, hprep, heq⟩
    · rw [he]
      exact .failed e s' (hquiet.diskOnly hs')
    · rw [heq]
      exact .committed st pos s₀ s₁ hquiet hguarded hfresh (congrArg DiskView.segmentId hdisk)
        hprep

/-! ### Publication and fences -/

/-- `s'` differs from `s` at most in the gate, the fence ledger and the watermarks. -/
structure PublishOnly (s s' : WriterCore) : Prop where
  inserted : s'.index.inserted = s.index.inserted
  latest : s'.index.latest = s.index.latest
  idemp : s'.index.idemp = s.index.idemp
  active : s'.active = s.active
  sealed : s'.sealed = s.sealed
  segmentId : s'.segmentId = s.segmentId
  sidxCollector : s'.sidxCollector = s.sidxCollector
  hiddenRanges : s'.hiddenRanges = s.hiddenRanges
  replies : s'.replies = s.replies
  fenceCount : s'.fenceCount = s.fenceCount
  committedFences : s'.committedFences = s.committedFences

theorem PublishOnly.refl (s : WriterCore) : PublishOnly s s :=
  ⟨rfl, rfl, rfl, rfl, rfl, rfl, rfl, rfl, rfl, rfl, rfl⟩

theorem publishCommitted_publishOnly (fenced : Bool) (first upTo : Nat) (point : HlcPoint)
    (notifications : List Notification) (s : WriterCore) :
    Post (fun _ => PublishOnly s) (PublishOnly s)
      (publishCommitted fenced first upTo point notifications s) := by
  unfold publishCommitted
  cases fenced with
  | true =>
      rw [if_pos rfl]
      unfold recordFenceProgress
      split
      · exact PublishOnly.refl s
      · dsimp only
        split
        · exact ⟨rfl, rfl, rfl, rfl, rfl, rfl, rfl, rfl, rfl, rfl, rfl⟩
        · exact ⟨rfl, rfl, rfl, rfl, rfl, rfl, rfl, rfl, rfl, rfl, rfl⟩
  | false =>
      rw [if_neg (by decide)]
      unfold publishThenBroadcastUnfenced
      split
      · exact PublishOnly.refl s
      · exact ⟨rfl, rfl, rfl, rfl, rfl, rfl, rfl, rfl, rfl, rfl, rfl⟩

theorem publishAppend_publishOnly (fenced : Bool) (st : StagedCommittedEvent) (pos : DiskPos)
    (s : WriterCore) : PublishOnly s (finalState (publishAppend fenced st pos s)) := by
  have h := publishCommitted_publishOnly fenced st.globalSequence (st.globalSequence + 1) st.point
    [st.notification] s
  unfold publishAppend
  cases hp : publishCommitted fenced st.globalSequence (st.globalSequence + 1) st.point
      [st.notification] s with
  | ok u s' =>
      rw [hp] at h
      rw [bind_of_ok hp]
      exact h
  | error e s' =>
      rw [hp] at h
      rw [bind_eq_error.mpr (.inl hp)]
      exact h

/-- The two states index the same entries. -/
structure SameEntries (s s' : WriterCore) : Prop where
  inserted : s'.index.inserted = s.index.inserted
  latest : s'.index.latest = s.index.latest

theorem SameEntries.refl (s : WriterCore) : SameEntries s s := ⟨rfl, rfl⟩

theorem SameEntries.trans {s'' : WriterCore} (h : SameEntries s s') (h' : SameEntries s' s'') :
    SameEntries s s'' :=
  ⟨h'.inserted.trans h.inserted, h'.latest.trans h.latest⟩

/-! ### What the fence operations do -/

/-- What a held receipt is answered when its fence commits. -/
def PendingFenceResponse.okReply : PendingFenceResponse → Nat × Reply
  | .single respond receipt => (respond, .receipt (.ok receipt))
  | .batch respond receipts => (respond, .receipts (.ok receipts))

/-- What a held receipt is answered when its fence is cancelled. -/
def PendingFenceResponse.cancelledReply : PendingFenceResponse → Nat × Reply
  | .single respond _ => (respond, .receipt (.error .visibilityFenceCancelled))
  | .batch respond _ => (respond, .receipts (.error .visibilityFenceCancelled))

theorem foldl_completeOk (rs : List PendingFenceResponse) (s : WriterCore) :
    rs.foldl PendingFenceResponse.completeOk s =
      { s with replies := (rs.map (·.okReply)).reverse ++ s.replies } := by
  induction rs generalizing s with
  | nil => rfl
  | cons r rest ih =>
      rw [List.foldl_cons, ih]
      cases r <;> simp [PendingFenceResponse.completeOk, PendingFenceResponse.okReply, sendReply]

theorem foldl_completeCancelled (rs : List PendingFenceResponse) (s : WriterCore) :
    rs.foldl PendingFenceResponse.completeCancelled s =
      { s with replies := (rs.map (·.cancelledReply)).reverse ++ s.replies } := by
  induction rs generalizing s with
  | nil => rfl
  | cons r rest ih =>
      rw [List.foldl_cons, ih]
      cases r <;> simp [PendingFenceResponse.completeCancelled, PendingFenceResponse.cancelledReply,
        sendReply]

/-- The store after a fence committed at a gate. -/
def WriterCore.fenceCommitted (s : WriterCore) (fence : FenceLedger) (gate : SequenceGate) :
    WriterCore :=
  let watermark :=
    match fence.frontierPoint with
    | some point => s.watermark.advanceVisibleAndEmitted point
    | none => s.watermark
  { s with
    index := { s.index with gate := gate }
    watermark := advanceVisibleOnLanes watermark fence.notifications
    fenceLedger := none
    committedFences := fence.identity :: s.committedFences
    replies := (fence.responses.map (·.okReply)).reverse ++ s.replies }

/-- The gate after a cancellation, which a refused one leaves as it was. -/
def WriterCore.gateAfterCancel (s : WriterCore) (token : Nat) : SequenceGate :=
  match s.index.gate.cancelFence token s.index.fenceLanePoints with
  | .ok gate => gate
  | .error _ => s.index.gate

/-- The store after a fence was dropped at a gate. -/
def WriterCore.fenceDropped (s : WriterCore) (gate : SequenceGate)
    (ranges : Option CancelledVisibilityRanges) (replies : List (Nat × Reply)) : WriterCore :=
  { s with
    index := { s.index with gate := gate }
    fenceLedger := none
    hiddenRanges := ranges
    replies := replies ++ s.replies }

section Fences

variable {P : WriterCore → Prop} {flt : Faults} {token : Nat} {s : WriterCore}

@[elab_as_elim] theorem beginVisibilityFence_cases (refused : P s)
    (begun : s.fenceLedger = none → s.index.gate.activeFence = token → token ≠ 0 →
      P { s with
        fenceLedger := some ⟨token, none, none, [], [], s.fenceCount⟩
        fenceCount := s.fenceCount + 1 }) :
    P (finalState (beginVisibilityFence token s)) := by
  unfold beginVisibilityFence
  split
  · exact refused
  · rename_i hledger
    split
    · rename_i htoken
      unfold SequenceGate.activeFenceToken at htoken
      split at htoken
      · cases htoken
      · rename_i hactive
        cases htoken
        exact begun hledger rfl hactive
    · exact refused

@[elab_as_elim] theorem commitVisibilityFence_cases (refused : P s)
    (lost : ∀ fence e, s.fenceLedger = some fence → fence.token = token →
      s.index.gate.finishFenceOnLanes token fence.publishUpTo (laneBounds fence.notifications) =
        .error e → P { s with fenceLedger := none })
    (committed : ∀ fence gate, s.fenceLedger = some fence → fence.token = token →
      s.index.gate.finishFenceOnLanes token fence.publishUpTo (laneBounds fence.notifications) =
        .ok gate → P (s.fenceCommitted fence gate)) :
    P (finalState (commitVisibilityFence token s)) := by
  unfold commitVisibilityFence
  split
  · exact refused
  · rename_i fence hledger
    split
    · exact refused
    · rename_i htoken
      split
      · exact lost fence _ hledger (not_not.mp htoken) ‹_›
      · rw [finalState_ok, foldl_completeOk]
        exact committed fence _ hledger (not_not.mp htoken) ‹_›

@[elab_as_elim] theorem gateAfterCancel_cases {Q : SequenceGate → Prop} (kept : Q s.index.gate)
    (cancelled : ∀ gate,
      s.index.gate.cancelFence token s.index.fenceLanePoints = .ok gate → Q gate) :
    Q (s.gateAfterCancel token) := by
  unfold WriterCore.gateAfterCancel
  split
  · exact cancelled _ ‹_›
  · exact kept

@[elab_as_elim] theorem cancelVisibilityFence_cases (refused : P s)
    (unanswered : ∀ fence, s.fenceLedger = some fence → fence.token = token →
      (flt.persistRanges = true ∨ s.index.gate.activeFence ≠ token) →
      P (s.fenceDropped (s.gateAfterCancel token) s.hiddenRanges []))
    (cancelled : ∀ fence, s.fenceLedger = some fence → fence.token = token →
      P (s.fenceDropped (s.gateAfterCancel token)
        (some (s.gateAfterCancel token).cancelledRangesSnapshot)
        (fence.responses.map (·.cancelledReply)).reverse)) :
    P (finalState (cancelVisibilityFence flt token s)) := by
  unfold cancelVisibilityFence
  split
  · exact refused
  · rename_i fence hledger
    split
    · exact refused
    · rename_i htoken
      have hunanswered := unanswered fence hledger (not_not.mp htoken)
      have hcancelled := cancelled fence hledger (not_not.mp htoken)
      unfold WriterCore.gateAfterCancel at hunanswered hcancelled
      unfold StoreIndex.cancelVisibilityFence persistCancelledVisibilityRanges
      cases hgate : s.index.gate.cancelFence token s.index.fenceLanePoints with
      | error e =>
          rw [hgate] at hunanswered
          apply hunanswered (.inr _)
          intro hactive
          rw [SequenceGate.cancelFence, if_pos hactive] at hgate
          cases hgate
      | ok gate =>
          rw [hgate] at hunanswered hcancelled
          cases hfails : flt.persistRanges with
          | true => exact hunanswered (.inl hfails)
          | false =>
              change P (fence.responses.foldl PendingFenceResponse.completeCancelled _)
              rw [foldl_completeCancelled]
              exact hcancelled

@[elab_as_elim] theorem autoCancelFenceOnShutdown_cases (untouched : s.fenceLedger = none → P s)
    (dropped : ∀ fence, s.fenceLedger = some fence →
      P (s.fenceDropped (s.gateAfterCancel fence.token)
        (if flt.persistRanges then s.hiddenRanges
          else some (s.gateAfterCancel fence.token).cancelledRangesSnapshot)
        (fence.responses.map (·.cancelledReply)).reverse)) :
    P (autoCancelFenceOnShutdown flt s) := by
  unfold autoCancelFenceOnShutdown
  split
  · exact untouched ‹_›
  · rename_i fence hledger
    have hdropped := dropped fence hledger
    unfold WriterCore.gateAfterCancel at hdropped
    unfold StoreIndex.cancelVisibilityFence persistCancelledVisibilityRanges
    dsimp only
    rw [foldl_completeCancelled]
    generalize flt.persistRanges = fails at hdropped ⊢
    cases hgate : s.index.gate.cancelFence fence.token s.index.fenceLanePoints with
    | error e =>
        rw [hgate] at hdropped
        cases fails <;> exact hdropped
    | ok gate =>
        rw [hgate] at hdropped
        cases fails <;> exact hdropped

end Fences

theorem beginVisibilityFence_sameEntries (token : Nat) (s : WriterCore) :
    SameEntries s (finalState (beginVisibilityFence token s)) :=
  beginVisibilityFence_cases (.refl s) fun _ _ _ => ⟨rfl, rfl⟩

theorem commitVisibilityFence_sameEntries (token : Nat) (s : WriterCore) :
    SameEntries s (finalState (commitVisibilityFence token s)) :=
  commitVisibilityFence_cases (.refl s) (fun _ _ _ _ _ => ⟨rfl, rfl⟩) fun _ _ _ _ _ => ⟨rfl, rfl⟩

theorem cancelVisibilityFence_sameEntries (flt : Faults) (token : Nat) (s : WriterCore) :
    SameEntries s (finalState (cancelVisibilityFence flt token s)) :=
  cancelVisibilityFence_cases (.refl s) (fun _ _ _ _ => ⟨rfl, rfl⟩) fun _ _ _ => ⟨rfl, rfl⟩

theorem autoCancelFenceOnShutdown_sameEntries (flt : Faults) (s : WriterCore) :
    SameEntries s (autoCancelFenceOnShutdown flt s) :=
  autoCancelFenceOnShutdown_cases (fun _ => .refl s) fun _ _ => ⟨rfl, rfl⟩

theorem syncOutcome_diskOnly (flt : Faults) (s : WriterCore) :
    DiskOnly s (syncOutcome flt s).2 := by
  have h := @syncActiveSegment_diskOnly s flt s (DiskOnly.refl s)
  unfold syncOutcome
  cases hs : syncActiveSegment flt s with
  | ok u s' =>
      rw [hs] at h
      exact h
  | error e s' =>
      rw [hs] at h
      exact h

theorem DiskOnly.sameEntries (h : DiskOnly s s') : SameEntries s s' :=
  ⟨by rw [h.index], by rw [h.index]⟩

theorem respondWith_index (respond : Nat) (mk : Except StoreError α → Reply) (m : WriterM α)
    (s : WriterCore) :
    (respondWith respond mk m s).index = (finalState (m s)).index := by
  unfold respondWith
  cases m s <;> rfl

theorem underFence_index (token respond : Nat) (mk : Except StoreError α → Reply)
    (pending : α → PendingFenceResponse) (m : WriterM α) (s : WriterCore) :
    (underFence token respond mk pending m s).2.index = s.index ∨
      (underFence token respond mk pending m s).2.index = (finalState (m s)).index := by
  unfold underFence
  split
  · right
    cases m s <;> rfl
  · exact .inl rfl

/-- The sync barrier and the deferred reply of a command index nothing new. -/
theorem settle_sameEntries (flt : Faults) (result : CommandResult) (s : WriterCore) :
    SameEntries s (settle flt result s) := by
  unfold settle
  split
  · have hsync := (syncOutcome_diskOnly flt s).sameEntries
    generalize syncOutcome flt s = p at hsync
    obtain ⟨r, s'⟩ := p
    refine hsync.trans ?_
    cases result.deferredReply with
    | none => exact SameEntries.refl s'
    | sync respond => exact ⟨rfl, rfl⟩
    | shutdown respond => exact ⟨rfl, rfl⟩
    | beginVisibilityFence token respond =>
        cases r with
        | error e => exact ⟨rfl, rfl⟩
        | ok u =>
            have h := beginVisibilityFence_sameEntries token s'
            constructor
            · exact (congrArg StoreIndex.inserted (respondWith_index ..)).trans h.inserted
            · exact (congrArg StoreIndex.latest (respondWith_index ..)).trans h.latest
    | commitVisibilityFence token respond =>
        cases r with
        | error e => exact ⟨rfl, rfl⟩
        | ok u =>
            have h := commitVisibilityFence_sameEntries token s'
            constructor
            · exact (congrArg StoreIndex.inserted (respondWith_index ..)).trans h.inserted
            · exact (congrArg StoreIndex.latest (respondWith_index ..)).trans h.latest
  · exact SameEntries.refl s

end Batpak.Store
