/-
Module: Batpak.Proofs.RecordedEffects
Purpose: What appends do when no platform call fails once a frame of theirs is in the file:
  they are refused and leave the files alone, or every event they wrote is recorded.
Trusted boundary: none
Main exports: handleAppend_recorded, RecordedBatch
-/
import Batpak.Proofs.BatchStaging
import Batpak.Proofs.DiskEffects

namespace Batpak.Store

open Batpak.Util

variable {i idx : Nat} {s s' s₀ : WriterCore}

/-- No platform call fails once the first frame of a command with `n` events may be in the
file. The first encoding and the rotation come before that. -/
structure Faults.Recording (flt : Faults) (n : Nat) : Prop where
  write : ∀ i ≤ n + 1, flt.write i = Option.none
  encode : ∀ i ≤ n, flt.encode (i + 1) = false
  sync : flt.sync = false
  intern : flt.intern = false
  sidxRecord : ∀ i ≤ n, flt.sidxRecord i = false

instance (flt : Faults) (n : Nat) : Decidable (flt.Recording n) :=
  decidable_of_iff ((∀ i ≤ n + 1, flt.write i = Option.none) ∧
    (∀ i ≤ n, flt.encode (i + 1) = false) ∧ flt.sync = false ∧ flt.intern = false ∧
    ∀ i ≤ n, flt.sidxRecord i = false)
    ⟨fun ⟨hwrite, hencode, hsync, hintern, hrecord⟩ => ⟨hwrite, hencode, hsync, hintern, hrecord⟩,
      fun h => ⟨h.write, h.encode, h.sync, h.intern, h.sidxRecord⟩⟩

theorem recording_none (n : Nat) : Faults.none.Recording n :=
  ⟨fun _ _ => rfl, fun _ _ => rfl, rfl, rfl, fun _ _ => rfl⟩

section Frames

variable {rt : Runtime} {flt : Faults} {n : Nat}

theorem frameEncode_fits {f : Frame} (h : rt.frameLength f ≤ u32Max) {fails : Bool}
    (hfails : fails = false) : frameEncode rt fails f = .ok (rt.frameLength f) := by
  have hfits : ¬u32Max < rt.frameLength f - 8 := by omega
  simp [frameEncode, hfails, hfits]

theorem ensure_of {p : Prop} [Decidable p] (h : p) (e : StoreError) :
    ensure (decide p) e = .ok () := by
  simp [ensure, h]

theorem writeFrame_recording (hflt : flt.Recording n) (hi : i ≤ n + 1) (f : Frame) (length : Nat)
    (s : WriterCore) : ∃ offset s', writeFrame flt i f length s = .ok offset s' := by
  unfold writeFrame Segment.writeFrame
  rw [hflt.write i hi]
  exact ⟨_, _, rfl⟩

theorem writeStaged_recording (hflt : flt.Recording n) (hi : i ≤ n + 1) (st : StagedCommittedEvent)
    (length : Nat) (s : WriterCore) :
    ∃ offset s', writeStaged flt i st length s = .ok offset s' := by
  obtain ⟨offset, s', hwrite⟩ := writeFrame_recording hflt hi st.frame length s
  unfold writeStaged
  rw [bind_of_ok hwrite]
  exact ⟨_, _, rfl⟩

/-- The writer refuses to rotate before it touches the files. -/
theorem maybeRotateSegment_refused (cfg : StoreConfig) {e : StoreError}
    (h : maybeRotateSegment cfg flt s = .error e s') : s'.disk = s.disk := by
  have hrefused := @maybeRotateSegment_disk s.disk cfg flt s rfl
  rw [h] at hrefused
  exact hrefused

end Frames

/-! ### The single append -/

/-- What an append does under recording faults. -/
inductive RecordedAppend (cfg : StoreConfig) (rt : Runtime) (req : AppendRequest) (fenced : Bool)
    (s s' : WriterCore) : Prop where
  | refused (disk : s'.disk = s.disk) (inserted : s'.index.inserted = s.index.inserted)
      (latest : s'.index.latest = s.index.latest)
  | committed (st : StagedCommittedEvent) (pos : DiskPos)
      (staged : StagedAppend rt req fenced s st)
      (disk : CommittedAppendDisk cfg rt s.disk st pos s'.disk)
      (inserted : s'.index.inserted = st.indexEntry pos :: s.index.inserted)
      (latest : s'.index.latest = st.indexEntry pos :: s.index.latest)

section Single

variable {cfg : StoreConfig} {rt : Runtime} {flt : Faults} {n : Nat} {req : AppendRequest}
  {fenced : Bool}

theorem prepareAppend_refused (hflt : flt.Recording n) {latest : Option IndexEntry} {e : StoreError}
    (hfits : ∀ st, stageAppend rt req latest s.segmentId s.index.globalSequence
      (fenceIdentity s fenced) = .ok st → rt.frameLength st.frame ≤ u32Max)
    (h : prepareAppend cfg rt flt req latest fenced s = .error e s') : s'.disk = s.disk := by
  unfold prepareAppend at h
  cases hstage : stageAppend rt req latest s.segmentId s.index.globalSequence
      (fenceIdentity s fenced) with
  | error e' =>
      have haccept : acceptAppend rt req latest fenced s = .error e' s := by
        unfold acceptAppend
        rw [hstage]
      rw [bind_eq_error.mpr (.inl haccept)] at h
      cases h
      rfl
  | ok st =>
      have haccept : acceptAppend rt req latest fenced s = .ok st { s with
          watermark := s.watermark.advanceAcceptedOnLane st.frame.dagLane st.point } := by
        unfold acceptAppend
        rw [hstage]
      rw [bind_of_ok haccept] at h
      have hlength := hfits st hstage
      cases hencode : frameEncode rt (flt.encode 0) st.frame with
      | error e' =>
          rw [bind_eq_error.mpr (.inl (liftExcept_of_error hencode _))] at h
          cases h
          rfl
      | ok length =>
          have heq := frameEncode_ok hencode
          subst heq
          rw [bind_of_ok (liftExcept_of_ok hencode _)] at h
          rcases bind_eq_error.mp h with hrotate | ⟨rotated, s₁, -, hrest⟩
          · rw [maybeRotateSegment_refused cfg hrotate]
            rfl
          · -- from the first write on nothing fails
            obtain ⟨offset, s₂, hwrite⟩ :=
              writeStaged_recording hflt (Nat.zero_le _) st (rt.frameLength st.frame) s₁
            rw [bind_of_ok hwrite, bind_of_ok (liftExcept_of_ok (ensure_of hlength _) s₂)] at hrest
            cases hrest

theorem commitStaged_recording (hflt : flt.Recording n) (keyed : Bool) (st : StagedCommittedEvent)
    (pos : DiskPos) (s : WriterCore) :
    commitStaged flt keyed st pos s = .ok () (commitState keyed st pos s) := by
  unfold commitStaged
  rw [hflt.intern, hflt.sidxRecord 0 (Nat.zero_le _)]
  rfl

theorem commitAppend_recorded (hflt : flt.Recording n)
    (hfits : ∀ st, StagedAppend rt req fenced s st → rt.frameLength st.frame ≤ u32Max) :
    RecordedAppend cfg rt req fenced s
      (finalState (commitAppend cfg rt flt req (req.latest s.index) fenced s)) := by
  have heffect := commitAppend_effect cfg rt flt req fenced s
  cases hp : prepareAppend cfg rt flt req (req.latest s.index) fenced s with
  | error e s' =>
      have hdisk := prepareAppend_refused hflt hfits hp
      have hrun : commitAppend cfg rt flt req (req.latest s.index) fenced s = .error e s' :=
        bind_eq_error.mpr (.inl hp)
      have hprep := @prepareAppend_triple s cfg rt flt req (req.latest s.index) fenced s rfl
      rw [hp] at hprep
      rw [hrun]
      have hindex : s'.index = s.index := hprep.index
      exact .refused hdisk (by rw [finalState_error, hindex]) (by rw [finalState_error, hindex])
  | ok p s₁ =>
      obtain ⟨st, pos⟩ := p
      have hcommit := commitStaged_recording hflt req.idempotencyKey.isSome st pos s₁
      have hinserted : (finalState (commitAppend cfg rt flt req (req.latest s.index) fenced
          s)).index.inserted = st.indexEntry pos :: s₁.index.inserted := by
        unfold commitAppend
        rw [bind_of_ok hp]
        dsimp only
        rw [bind_of_ok hcommit]
        exact (publishAppend_publishOnly fenced st pos _).inserted
      have hprep := @prepareAppend_triple s cfg rt flt req (req.latest s.index) fenced s rfl
      rw [hp] at hprep
      have hindex : s₁.index = s.index := hprep.diskOnly.index
      cases heffect with
      | failed disk inserted latest =>
          rw [hinserted, hindex] at inserted
          exact absurd inserted (List.cons_ne_self _ _)
      | committed st pos staged disk inserted latest =>
          exact .committed st pos staged disk inserted latest

theorem RecordedAppend.of_quiet (hquiet : Uncommitted 0 s s₀) (hdisk : s₀.disk = s.disk)
    (h : RecordedAppend cfg rt req fenced s₀ s') :
    RecordedAppend cfg rt req fenced s s' := by
  cases h with
  | refused disk inserted latest =>
      exact .refused (disk.trans hdisk) (inserted.trans hquiet.inserted)
        (latest.trans hquiet.latest)
  | committed st pos staged disk inserted latest =>
      rw [stagedAppend_quiet hquiet hdisk] at staged
      rw [hdisk] at disk
      rw [hquiet.inserted] at inserted
      rw [hquiet.latest] at latest
      exact .committed st pos staged disk inserted latest

theorem handleAppend_recorded (hflt : flt.Recording n)
    (hfits : ∀ st, StagedAppend rt req fenced s st → rt.frameLength st.frame ≤ u32Max) :
    RecordedAppend cfg rt req fenced s (finalState (handleAppend cfg rt flt req fenced s)) := by
  rcases handleAppend_prelude rt req fenced s with ⟨r, hquiet, hdisk, hrun⟩ |
    ⟨s₀, hquiet, hdisk, hrun⟩ <;> rw [hrun]
  · exact .refused hdisk hquiet.inserted hquiet.latest
  · rw [← stagedAppend_quiet hquiet hdisk] at hfits
    exact (commitAppend_recorded hflt hfits).of_quiet hquiet hdisk

end Single

/-! ### The batch -/

/-- What a batch does under recording faults. -/
inductive RecordedBatch (cfg : StoreConfig) (rt : Runtime) (nowUs : Int)
    (items : List BatchAppendItem) (fenced : Bool) (s s' : WriterCore) : Prop where
  | refused (disk : s'.disk = s.disk) (inserted : s'.index.inserted = s.index.inserted)
      (latest : s'.index.latest = s.index.latest)
  | committed (nowMs : Nat) (receipts : List AppendReceipt) (d₁ : DiskView)
      (wall : wallMsFromTimestampUs nowUs = .ok nowMs) (nonempty : items ≠ [])
      (valid : validateBatch cfg rt items = .ok ())
      (accepted : AllSplits (BatchAccepts s.index) [] items)
      (written : WrittenBatchDisk cfg rt s.index.globalSequence nowUs s.disk
        (stagedItems rt (batchContext nowUs nowMs fenced s) s.index [] items)
        (receipts.map (·.diskPos)) d₁)
      (disk : s'.disk = d₁.collect (batchRows
        (stagedItems rt (batchContext nowUs nowMs fenced s) s.index [] items) receipts))
      (inserted : s'.index.inserted = (batchEntries
        (stagedItems rt (batchContext nowUs nowMs fenced s) s.index [] items) receipts).reverse ++
          s.index.inserted)
      (latest : s'.index.latest = (batchEntries
        (stagedItems rt (batchContext nowUs nowMs fenced s) s.index [] items) receipts).reverse ++
          s.index.latest)

/-- The frames a batch would write in a context fit their length fields. -/
structure ContextFits (rt : Runtime) (ctx : BatchContext) (ix : StoreIndex)
    (items : List BatchAppendItem) : Prop where
  events : ∀ st ∈ stagedItems rt ctx ix [] items,
    st.frame.payload.length ≤ u32Max ∧ rt.frameLength st.frame ≤ u32Max
  commit : rt.frameLength (batchMarkerFrame ctx.firstSeq .systemBatchCommit 0 ctx.nowUs
    ctx.nowMs) ≤ u32Max

/-- The frames a batch would write fit their length fields. -/
def BatchFits (rt : Runtime) (nowUs : Int) (items : List BatchAppendItem) (fenced : Bool)
    (s : WriterCore) : Prop :=
  ∀ nowMs, wallMsFromTimestampUs nowUs = .ok nowMs →
    ContextFits rt (batchContext nowUs nowMs fenced s) s.index items

section Batch

variable {cfg : StoreConfig} {rt : Runtime} {flt : Faults} {n : Nat} {nowUs : Int}
  {items : List BatchAppendItem} {fenced : Bool}

theorem writeBatchEventFrame_recording (hflt : flt.Recording n) (hidx : idx ≤ n)
    {st : StagedCommittedEvent} (hpayload : st.frame.payload.length ≤ u32Max)
    (hfits : rt.frameLength st.frame ≤ u32Max) (s : WriterCore) :
    ∃ receipt s', writeBatchEventFrame rt flt idx st s = .ok receipt s' := by
  obtain ⟨offset, s₁, hwrite⟩ :=
    writeStaged_recording hflt (Nat.succ_le_succ hidx) st (rt.frameLength st.frame) s
  unfold writeBatchEventFrame batchFailedAt
  rw [bind_of_ok (liftExcept_of_ok (ensure_of hpayload _) s),
    bind_of_ok (liftExcept_of_ok (frameEncode_fits hfits (hflt.encode idx hidx)) s), bind_of_ok hwrite,
    bind_of_ok (liftExcept_of_ok (ensure_of hfits _) s₁)]
  exact ⟨_, _, rfl⟩

theorem writeBatchEventFrames_recording (hflt : flt.Recording n)
    {staged : List StagedCommittedEvent} (hcount : idx + staged.length ≤ n)
    (h : ∀ st ∈ staged, st.frame.payload.length ≤ u32Max ∧ rt.frameLength st.frame ≤ u32Max)
    (s : WriterCore) :
    ∃ receipts s', writeBatchEventFrames rt flt idx staged s = .ok receipts s' := by
  induction staged generalizing idx s with
  | nil => exact ⟨[], s, rfl⟩
  | cons st rest ih =>
      obtain ⟨hpayload, hfits⟩ := h st List.mem_cons_self
      rw [List.length_cons] at hcount
      have hidx : idx ≤ n := by omega
      have hrestCount : idx + 1 + rest.length ≤ n := by omega
      obtain ⟨receipt, s₁, hfirst⟩ := writeBatchEventFrame_recording hflt hidx hpayload hfits s
      obtain ⟨receipts, s₂, hrest⟩ :=
        ih hrestCount (fun st' hst' => h st' (List.mem_cons_of_mem _ hst')) s₁
      refine ⟨receipt :: receipts, s₂, ?_⟩
      unfold writeBatchEventFrames
      rw [bind_of_ok hfirst, bind_of_ok hrest]
      rfl

/-- The COMMIT marker goes through. -/
theorem writeCommitMarker_recording (cfg : StoreConfig) (hflt : flt.Recording n) {nowMs : Nat}
    (hwall : wallMsFromTimestampUs nowUs = .ok nowMs) (hi : i ≤ n) (batchId idx : Nat)
    (s : WriterCore)
    (hfits : rt.frameLength (batchMarkerFrame batchId .systemBatchCommit 0 nowUs nowMs) ≤ u32Max) :
    ∃ offset s', writeBatchMarkerFrame cfg rt flt (i + 1) batchId .systemBatchCommit 0 nowUs idx
      false s = .ok offset s' := by
  obtain ⟨offset, s', hwrite⟩ := writeFrame_recording hflt (Nat.succ_le_succ hi)
    (batchMarkerFrame batchId .systemBatchCommit 0 nowUs nowMs)
    (rt.frameLength (batchMarkerFrame batchId .systemBatchCommit 0 nowUs nowMs)) s
  have hstay : rotateIf cfg flt false s = .ok false s := rfl
  unfold writeBatchMarkerFrame batchFailedAt
  rw [bind_of_ok (liftExcept_of_ok hwall s),
    bind_of_ok (liftExcept_of_ok (frameEncode_fits hfits (hflt.encode i hi)) s), bind_of_ok hstay,
    hwrite]
  exact ⟨_, _, rfl⟩

/-- The BEGIN marker is written, or refused before the files are touched. -/
theorem writeBeginMarker_recording (cfg : StoreConfig) (hflt : flt.Recording n) {nowMs : Nat}
    (hwall : wallMsFromTimestampUs nowUs = .ok nowMs) (batchId count idx : Nat)
    (s : WriterCore) :
    (∃ offset s', writeBatchMarkerFrame cfg rt flt 0 batchId .systemBatchBegin count nowUs idx true s =
      .ok offset s') ∨
    ∃ e s', writeBatchMarkerFrame cfg rt flt 0 batchId .systemBatchBegin count nowUs idx true s =
      .error e s' ∧ s'.disk = s.disk := by
  unfold writeBatchMarkerFrame batchFailedAt
  rw [bind_of_ok (liftExcept_of_ok hwall s)]
  cases hencode : frameEncode rt (flt.encode 0)
      (batchMarkerFrame batchId .systemBatchBegin count nowUs nowMs) with
  | error e =>
      rw [bind_eq_error.mpr (.inl (liftExcept_of_error rfl s))]
      exact .inr ⟨_, s, rfl, rfl⟩
  | ok length =>
      rw [bind_of_ok (liftExcept_of_ok rfl s)]
      cases hrotate : rotateIf cfg flt true s with
      | error e s' =>
          rw [bind_eq_error.mpr (.inl hrotate)]
          exact .inr ⟨_, s', rfl, maybeRotateSegment_refused cfg hrotate⟩
      | ok rotated s₁ =>
          obtain ⟨offset, s₂, hwrite⟩ := writeFrame_recording hflt (Nat.zero_le _)
            (batchMarkerFrame batchId .systemBatchBegin count nowUs nowMs) length s₁
          rw [bind_of_ok hrotate, hwrite]
          exact .inl ⟨offset, s₂, rfl⟩

theorem recordSidxEntries_recording (hflt : flt.Recording n) {rows : List SidxEntry}
    (hcount : idx + rows.length ≤ n) (s : WriterCore) : recordSidxEntries flt idx rows s =
      .ok () { s with sidxCollector := s.sidxCollector ++ rows } := by
  induction rows generalizing idx s with
  | nil =>
      rw [List.append_nil]
      rfl
  | cons row rest ih =>
      rw [List.length_cons] at hcount
      have hidx : idx ≤ n := by omega
      have hrestCount : idx + 1 + rest.length ≤ n := by omega
      have hensure : ensure (!flt.sidxRecord idx) .internerExhausted = .ok () := by
        rw [hflt.sidxRecord idx hidx]
        rfl
      have hmodify : (modify fun s : WriterCore =>
          { s with sidxCollector := s.sidxCollector ++ [row] } : WriterM PUnit) s =
          .ok ⟨⟩ { s with sidxCollector := s.sidxCollector ++ [row] } := rfl
      unfold recordSidxEntries
      rw [bind_of_ok (liftExcept_of_ok hensure s), bind_of_ok hmodify, ih hrestCount]
      simp

theorem commitBatch_recording (hflt : flt.Recording n) (keyed : Bool)
    {staged : List StagedCommittedEvent} (hcount : staged.length ≤ n)
    (receipts : List AppendReceipt) (s : WriterCore) :
    commitBatch flt keyed staged receipts s = .ok () (commitBatchState keyed staged receipts s) := by
  have hensure : ensure (!flt.intern) .internerExhausted = .ok () := by
    rw [hflt.intern]
    rfl
  have hrows : 0 + (batchRows staged receipts).length ≤ n := by
    simp only [batchRows, List.length_map, List.length_zip]
    omega
  unfold commitBatch
  rw [bind_of_ok (liftExcept_of_ok hensure s)]
  have hrecord := recordSidxEntries_recording hflt hrows s
  unfold batchRows at hrecord
  rw [bind_of_ok hrecord]
  rfl

theorem syncBatch_recording (hflt : flt.Recording n) (count : Nat) (s : WriterCore) :
    ∃ s', syncBatch flt count s = .ok () s' := by
  unfold syncBatch syncActiveSegment
  rw [hflt.sync]
  exact ⟨_, rfl⟩

/-- A batch is prepared as a whole, or refused before the files are touched. -/
theorem prepareBatch_recording (cfg : StoreConfig) (hflt : flt.Recording items.length)
    (firstSeq : Nat)
    (hfits : ∀ nowMs, wallMsFromTimestampUs nowUs = .ok nowMs → ContextFits rt
      ⟨nowUs, nowMs, firstSeq, s.segmentId, fenceIdentity s fenced⟩ s.index items) :
    (∃ nowMs receipts s', wallMsFromTimestampUs nowUs = .ok nowMs ∧
      AllSplits (BatchAccepts s.index) [] items ∧
      prepareBatch cfg rt flt nowUs items firstSeq fenced s = .ok (stagedItems rt
        ⟨nowUs, nowMs, firstSeq, s.segmentId, fenceIdentity s fenced⟩ s.index [] items,
          receipts) s') ∨
    ∃ e s', prepareBatch cfg rt flt nowUs items firstSeq fenced s = .error e s' ∧
      s'.disk = s.disk := by
  unfold prepareBatch
  cases hwall : wallMsFromTimestampUs nowUs with
  | error e =>
      have hfail : batchFailedAt 0 (liftExcept (.error e) : WriterM Nat) s =
          .error (.batchFailed 0 e) s := rfl
      rw [bind_eq_error.mpr (.inl hfail)]
      exact .inr ⟨_, s, rfl, rfl⟩
  | ok nowMs =>
      have hpass : batchFailedAt 0 (liftExcept (.ok nowMs) : WriterM Nat) s = .ok nowMs s := rfl
      have hget : (MonadState.get : WriterM WriterCore) s = .ok s s := rfl
      have hfits := hfits nowMs hwall
      rw [bind_of_ok hpass, bind_of_ok hget]
      obtain ⟨w, hplan⟩ := precomputeBatchItems_eq rt
        ⟨nowUs, nowMs, firstSeq, s.segmentId, fenceIdentity s fenced⟩ items
        (allSplits_nil (fun before item => itemClock s.index before item < u32Max) [])
      rcases hplan with ⟨hall, hplan⟩ | ⟨-, e, hplan⟩
      swap
      · have hrejected : precomputeBatchItems rt
            ⟨nowUs, nowMs, firstSeq, s.segmentId, fenceIdentity s fenced⟩ items [] [] s =
            .error e { s with watermark := w } := hplan
        rw [bind_eq_error.mpr (.inl hrejected)]
        exact .inr ⟨e, _, rfl, rfl⟩
      have hstaged : precomputeBatchItems rt
          ⟨nowUs, nowMs, firstSeq, s.segmentId, fenceIdentity s fenced⟩ items [] [] s =
          .ok (stagedItems rt ⟨nowUs, nowMs, firstSeq, s.segmentId, fenceIdentity s fenced⟩ s.index
            [] items) { s with watermark := w } := hplan
      rw [bind_of_ok hstaged]
      by_cases hcount : items.length ≤ u32Max
      swap
      · have hensure : ensure (decide (items.length ≤ u32Max))
            (.serialization "prepared batch item count exceeds u32::MAX") =
            .error (.serialization "prepared batch item count exceeds u32::MAX") := by
          simp [ensure, hcount]
        rw [bind_eq_error.mpr (.inl (liftExcept_of_error hensure _))]
        exact .inr ⟨_, _, rfl, rfl⟩
      rw [bind_of_ok (liftExcept_of_ok (ensure_of hcount _) _)]
      rcases @writeBeginMarker_recording rt flt items.length nowUs cfg hflt nowMs hwall firstSeq
          items.length 0 { s with watermark := w } with ⟨offset, s₁, hbegin⟩ | ⟨e, s', hbegin, hdisk⟩
      swap
      · rw [bind_eq_error.mpr (.inl hbegin)]
        exact .inr ⟨e, s', rfl, hdisk⟩
      obtain ⟨receipts, s₂, hframes⟩ := writeBatchEventFrames_recording hflt
        (by rw [stagedItems_length, Nat.zero_add]) hfits.events s₁
      obtain ⟨offset', s₃, hcommit⟩ := writeCommitMarker_recording cfg hflt hwall (Nat.le_refl _)
        firstSeq (items.length - 1) s₂ hfits.commit
      obtain ⟨s₄, hsync⟩ := syncBatch_recording hflt items.length s₃
      rw [bind_of_ok hbegin, bind_of_ok hframes, bind_of_ok hcommit, bind_of_ok hsync]
      exact .inl ⟨nowMs, receipts, s₄, rfl, hall, rfl⟩

theorem handlePreparedBatch_recorded (hflt : flt.Recording items.length) (hne : items ≠ [])
    (hvalid : validateBatch cfg rt items = .ok ()) (hfits : BatchFits rt nowUs items fenced s) :
    RecordedBatch cfg rt nowUs items fenced s
      (finalState (handlePreparedBatch cfg rt flt nowUs items fenced s)) := by
  have hreserve : reserveSequences items.length s =
      .ok s.index.globalSequence (reserved items.length s) := rfl
  have hquiet : Uncommitted items.length s (reserved items.length s) :=
    (Uncommitted.refl s).reserve items.length
  have hlatest : (reserved items.length s).index.latest = s.index.latest := rfl
  have hctx : ∀ nowMs, (⟨nowUs, nowMs, s.index.globalSequence, (reserved items.length s).segmentId,
      fenceIdentity (reserved items.length s) fenced⟩ : BatchContext) =
      batchContext nowUs nowMs fenced s := fun _ => rfl
  have hfits' : ∀ nowMs, wallMsFromTimestampUs nowUs = .ok nowMs → ContextFits rt
      ⟨nowUs, nowMs, s.index.globalSequence, (reserved items.length s).segmentId,
        fenceIdentity (reserved items.length s) fenced⟩ (reserved items.length s).index items := by
    intro nowMs hwall
    obtain ⟨hevents, hcommit⟩ := hfits nowMs hwall
    rw [hctx]
    refine ⟨?_, hcommit⟩
    rw [stagedItems_index hlatest]
    exact hevents
  unfold handlePreparedBatch
  rw [bind_of_ok hreserve]
  rcases prepareBatch_recording cfg hflt s.index.globalSequence hfits' with
    ⟨nowMs, receipts, s₁, hwall, haccepted, hprep⟩ | ⟨e, s', hprep, hdisk⟩
  · rw [hctx, stagedItems_index hlatest] at hprep
    rw [batchAccepts_index hlatest] at haccepted
    have hprepared := Triple.ok (@prepareBatch_triple (reserved items.length s) cfg rt flt nowUs
      items s.index.globalSequence fenced) (DiskOnly.refl _) hprep
    have hwritten := Triple.ok (@prepareBatch_disk (reserved items.length s) cfg rt flt nowUs items
      s.index.globalSequence fenced) rfl hprep
    rw [bind_of_ok hprep]
    dsimp only
    rw [bind_of_ok (commitBatch_recording hflt _ (by rw [stagedItems_length]) receipts s₁),
      finalState_bind_pure]
    have hfinal := Post.finalState (publishCommitted_publishOnly fenced s.index.globalSequence
      (s.index.globalSequence + items.length) (batchFrontier (stagedItems rt
        (batchContext nowUs nowMs fenced s) s.index [] items)) ((stagedItems rt
        (batchContext nowUs nowMs fenced s) s.index [] items).map (·.notification))
      (commitBatchState (items.any fun i => i.idempotencyKey.isSome) (stagedItems rt
        (batchContext nowUs nowMs fenced s) s.index [] items) receipts s₁))
    refine .committed nowMs receipts s₁.disk hwall hne hvalid haccepted hwritten ?_ ?_ ?_
    · rw [hfinal.disk]
      rfl
    · rw [hfinal.inserted]
      simp only [commitBatchState, StoreIndex.insertBatch_inserted]
      rw [hprepared.diskOnly.index]
      rfl
    · rw [hfinal.latest]
      simp only [commitBatchState, StoreIndex.insertBatch_latest]
      rw [hprepared.diskOnly.index]
      rfl
  · have hfailed := Triple.error (@prepareBatch_triple (reserved items.length s) cfg rt flt nowUs
      items s.index.globalSequence fenced) (DiskOnly.refl _) hprep
    rw [bind_eq_error.mpr (.inl hprep)]
    have hindex : s'.index = (reserved items.length s).index := hfailed.index
    exact .refused hdisk (by rw [finalState_error, hindex]; rfl)
      (by rw [finalState_error, hindex]; rfl)

/-- The quiet work of the key admission does not change the batch's context. -/
theorem batchContext_quiet (hquiet : Uncommitted 0 s s₀) (hdisk : s₀.disk = s.disk) (nowMs : Nat) :
    batchContext nowUs nowMs fenced s₀ = batchContext nowUs nowMs fenced s := by
  have hsegment : s₀.segmentId = s.segmentId := congrArg DiskView.segmentId hdisk
  unfold batchContext
  rw [hsegment, hquiet.globalSequence, fenceIdentity_congr hquiet.fenceLedger]

theorem batchFits_quiet (hquiet : Uncommitted 0 s s₀) (hdisk : s₀.disk = s.disk)
    (h : BatchFits rt nowUs items fenced s) :
    BatchFits rt nowUs items fenced s₀ := by
  intro nowMs hwall
  obtain ⟨hevents, hcommit⟩ := h nowMs hwall
  rw [batchContext_quiet hquiet hdisk]
  refine ⟨?_, hcommit⟩
  rw [stagedItems_index hquiet.latest]
  exact hevents

theorem RecordedBatch.of_quiet (hquiet : Uncommitted 0 s s₀) (hdisk : s₀.disk = s.disk)
    (h : RecordedBatch cfg rt nowUs items fenced s₀ s') :
    RecordedBatch cfg rt nowUs items fenced s s' := by
  cases h with
  | refused disk inserted latest =>
      exact .refused (disk.trans hdisk) (inserted.trans hquiet.inserted)
        (latest.trans hquiet.latest)
  | committed nowMs receipts d₁ wall nonempty valid accepted written disk inserted latest =>
      rw [batchContext_quiet hquiet hdisk, stagedItems_index hquiet.latest]
        at written disk inserted latest
      rw [batchAccepts_index hquiet.latest] at accepted
      rw [hdisk, hquiet.globalSequence] at written
      rw [hquiet.inserted] at inserted
      rw [hquiet.latest] at latest
      exact .committed nowMs receipts d₁ wall nonempty valid accepted written disk inserted latest

theorem handleAppendBatch_recorded (hflt : flt.Recording items.length)
    (hfits : BatchFits rt nowUs items fenced s) :
    RecordedBatch cfg rt nowUs items fenced s
      (finalState (handleAppendBatch cfg rt flt nowUs items fenced s)) := by
  rcases handleAppendBatch_prelude cfg rt nowUs items fenced s with ⟨r, hquiet, hdisk, hrun⟩ |
    ⟨s₀, hne, hvalid, hquiet, hdisk, hrun⟩ <;> rw [hrun]
  · exact .refused hdisk hquiet.inserted hquiet.latest
  · exact (handlePreparedBatch_recorded hflt hne hvalid
      (batchFits_quiet hquiet hdisk hfits)).of_quiet hquiet hdisk

end Batch

end Batpak.Store
