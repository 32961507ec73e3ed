/-
Module: Batpak.Proofs.DiskEffects
Purpose: What an append or a batch does to the files and the collected footer rows: an
  optional rotation, then the whole of what it writes, or a part of it when it fails.
Trusted boundary: none
Main exports: AppendEffect, BatchEffect
-/
import Batpak.Proofs.BatchEffects

namespace Batpak.Store

open Batpak.Util

variable {rt : Runtime} {s₀ s s' : WriterCore} {fenced : Bool} {flt : Faults}
  {whole left : List Chunk} {items : List BatchAppendItem}

/-! ### The files of the writer -/

namespace DiskView

def segments (d : DiskView) : List Segment :=
  d.sealed ++ [d.active]

/-- One write call. The written-bytes counter moves only when it succeeds. -/
def put (d : DiskView) (c : Chunk) : DiskView :=
  { d with active := { d.active with
      chunks := d.active.chunks ++ [c]
      writtenBytes := match c with
        | .frame _ length => d.active.writtenBytes + length
        | .torn _ => d.active.writtenBytes } }

def putAll (d : DiskView) (cs : List Chunk) : DiskView :=
  cs.foldl put d

def collect (d : DiskView) (rows : List SidxEntry) : DiskView :=
  { d with collector := d.collector ++ rows }

def sync (d : DiskView) : DiskView :=
  { d with active := d.active.sync }

/-- Seal the active file and start the next one. -/
def rotate (cfg : StoreConfig) (footerFails : Bool) (d : DiskView) : DiskView where
  sealed := d.sealed ++
    [if footerFails then d.active.sync else d.active.sync.writeSidxFooter d.collector]
  active := .create (d.segmentId + 1) cfg.headerBytes
  segmentId := d.segmentId + 1
  collector := []

/-- Where the writer believes its next frame goes. -/
def nextPos (d : DiskView) (length : Nat) : DiskPos :=
  ⟨d.segmentId, d.active.writtenBytes, length⟩

end DiskView

/-- Fault schedules that fail between writes, never inside one. -/
def Faults.NoTear (flt : Faults) : Prop :=
  ∀ i, flt.write i = Option.none

/-- A full file may be sealed before anything is written. -/
inductive MayRotate (cfg : StoreConfig) (d : DiskView) : DiskView → Prop where
  | stay : MayRotate cfg d d
  | rotate (footerFails : Bool) (full : d.active.needsRotation cfg.segmentMaxBytes = true) :
      MayRotate cfg d (d.rotate cfg footerFails)

def frameChunk (rt : Runtime) (f : Frame) : Chunk :=
  .frame f (rt.frameLength f)

/-! ### Single steps -/

section Steps

variable {d : DiskView}

theorem writeFrame_disk (flt : Faults) (i : Nat) (f : Frame) (length : Nat) :
    Triple (fun s => s.disk = d) (writeFrame flt i f length)
      (fun offset s => offset = d.active.writtenBytes ∧ s.disk = d.put (.frame f length))
      (fun s => ∃ k, ¬flt.NoTear ∧ s.disk = d.put (.torn k)) := by
  rintro s rfl
  unfold writeFrame Segment.writeFrame
  cases hwrite : flt.write i with
  | none => exact ⟨rfl, rfl⟩
  | some k =>
      refine ⟨k, fun hwhole => ?_, rfl⟩
      rw [hwhole i] at hwrite
      cases hwrite

theorem writeStaged_disk (flt : Faults) (i : Nat) (st : StagedCommittedEvent) (length : Nat) :
    Triple (fun s => s.disk = d) (writeStaged flt i st length)
      (fun offset s => offset = d.active.writtenBytes ∧ s.disk = d.put (.frame st.frame length))
      (fun s => ∃ k, ¬flt.NoTear ∧ s.disk = d.put (.torn k)) := by
  apply Triple.bind (writeFrame_disk flt i st.frame length)
  intro offset
  refine Triple.bind (Q := fun _ s => offset = d.active.writtenBytes ∧
    s.disk = d.put (.frame st.frame length)) (Triple.modify fun s hs => hs) fun u => ?_
  exact Triple.pure fun s hs => hs

theorem maybeRotateSegment_disk (cfg : StoreConfig) (flt : Faults) :
    Triple (fun s => s.disk = d) (maybeRotateSegment cfg flt)
      (fun _ s => MayRotate cfg d s.disk) (fun s => s.disk = d) := by
  rintro s rfl
  unfold maybeRotateSegment
  split
  · rename_i hfull
    split
    · rfl
    · split
      · rfl
      · exact MayRotate.rotate flt.footer hfull
  · exact MayRotate.stay

theorem syncActiveSegment_disk (flt : Faults) :
    Triple (fun s => s.disk = d) (syncActiveSegment flt) (fun _ s => s.disk = d.sync)
      (fun s => s.disk = d) := by
  rintro s rfl
  unfold syncActiveSegment
  split
  · rfl
  · rfl

theorem frameEncode_ok {fails : Bool} {f : Frame} {length : Nat}
    (h : frameEncode rt fails f = .ok length) : length = rt.frameLength f := by
  unfold frameEncode at h
  split at h
  · cases h
  · split at h
    · cases h
    · cases h
      rfl

end Steps

/-! ### The single append -/

/-- The event an append stages. -/
def StagedAppend (rt : Runtime) (req : AppendRequest) (fenced : Bool) (s : WriterCore)
    (st : StagedCommittedEvent) : Prop :=
  stageAppend rt req (req.latest s.index) s.segmentId s.index.globalSequence
    (fenceIdentity s fenced) = .ok st

/-- What a failed append leaves behind. -/
inductive AppendLeftover (rt : Runtime) (flt : Faults) (staged : StagedCommittedEvent → Prop) :
    List Chunk → Prop where
  | nothing : AppendLeftover rt flt staged []
  | torn (k : Nat) (tears : ¬flt.NoTear) : AppendLeftover rt flt staged [.torn k]
  | orphan (st : StagedCommittedEvent) (h : staged st) :
      AppendLeftover rt flt staged [frameChunk rt st.frame]

/-- The files after an append that failed before its commit point, or only replayed. -/
def FailedAppendDisk (cfg : StoreConfig) (rt : Runtime) (flt : Faults)
    (staged : StagedCommittedEvent → Prop) (d d' : DiskView) : Prop :=
  ∃ d₁ left, MayRotate cfg d d₁ ∧ AppendLeftover rt flt staged left ∧ d' = d₁.putAll left

/-- The files after an append reached its commit point. -/
def CommittedAppendDisk (cfg : StoreConfig) (rt : Runtime) (d : DiskView)
    (st : StagedCommittedEvent) (pos : DiskPos) (d' : DiskView) : Prop :=
  ∃ d₁, MayRotate cfg d d₁ ∧ pos = d₁.nextPos (rt.frameLength st.frame) ∧
    d' = (d₁.put (frameChunk rt st.frame)).collect [st.sidxEntry pos]

theorem prepareAppend_disk (cfg : StoreConfig) (rt : Runtime) (flt : Faults) (req : AppendRequest)
    (latest : Option IndexEntry) (fenced : Bool) :
    Triple (· = s₀) (prepareAppend cfg rt flt req latest fenced)
      (fun p s => ∃ d₁, MayRotate cfg s₀.disk d₁ ∧
        p.2 = d₁.nextPos (rt.frameLength p.1.frame) ∧ s.disk = d₁.put (frameChunk rt p.1.frame))
      (fun s => FailedAppendDisk cfg rt flt (fun st => stageAppend rt req latest s₀.segmentId
        s₀.index.globalSequence (fenceIdentity s₀ fenced) = .ok st) s₀.disk s.disk) := by
  have hidle : ∀ s : WriterCore, s.disk = s₀.disk → FailedAppendDisk cfg rt flt
      (fun st => stageAppend rt req latest s₀.segmentId s₀.index.globalSequence
        (fenceIdentity s₀ fenced) = .ok st) s₀.disk s.disk :=
    fun s hs => ⟨s₀.disk, [], .stay, .nothing, hs⟩
  have haccept : Triple (· = s₀) (acceptAppend rt req latest fenced)
      (fun st s => stageAppend rt req latest s₀.segmentId s₀.index.globalSequence
        (fenceIdentity s₀ fenced) = .ok st ∧ s.disk = s₀.disk)
      (fun s => s.disk = s₀.disk) := by
    rintro s rfl
    unfold acceptAppend
    split
    · rfl
    · rename_i st hst
      exact ⟨hst, rfl⟩
  apply Triple.bind (Triple.conseq haccept (fun s hs => hs) (fun _ _ hs => hs) hidle)
  rintro st s ⟨hst, hs⟩
  refine Triple.bind (Q := fun length s => length = rt.frameLength st.frame ∧ s.disk = s₀.disk)
    (Triple.conseq (liftExcept_triple _) (fun s hs => hs)
      (fun length s hl => ⟨frameEncode_ok hl.1, hl.2⟩) hidle) (fun length => ?_) s hs
  rintro s ⟨rfl, hs⟩
  refine Triple.bind (Triple.conseq (maybeRotateSegment_disk cfg flt) (fun s hs => hs)
    (fun _ _ hs => hs) hidle) (fun rotated => ?_) s hs
  intro s hrotated
  refine Triple.bind (Q := fun offset t => offset = s.disk.active.writtenBytes ∧
      t.disk = s.disk.put (frameChunk rt st.frame))
    (Triple.conseq (writeStaged_disk flt 0 st _) (fun t ht => ht) (fun _ _ h => h) ?_)
    (fun offset => ?_) s rfl
  · rintro t ⟨k, tears, ht⟩
    exact ⟨s.disk, [.torn k], hrotated, .torn k tears, ht⟩
  · rintro t ⟨rfl, ht⟩
    refine Triple.bind (Q := fun _ t => t.disk = s.disk.put (frameChunk rt st.frame))
      (Triple.conseq (liftExcept_triple _) (fun t ht => ht) (fun _ _ h => h.2) ?_)
      (fun u => ?_) t ht
    · intro t ht
      exact ⟨s.disk, [frameChunk rt st.frame], hrotated, .orphan st hst, ht⟩
    · intro t ht
      refine ⟨s.disk, hrotated, ?_, ht⟩
      have hid : t.segmentId = s.segmentId := congrArg DiskView.segmentId ht
      change (⟨t.segmentId, _, _⟩ : DiskPos) = ⟨s.segmentId, _, _⟩
      rw [hid]

/-- Everything a single append can do, to the index and to the files. -/
inductive AppendEffect (cfg : StoreConfig) (rt : Runtime) (flt : Faults) (req : AppendRequest)
    (fenced : Bool) (s s' : WriterCore) : Prop where
  | failed (disk : FailedAppendDisk cfg rt flt (StagedAppend rt req fenced s) s.disk s'.disk)
      (inserted : s'.index.inserted = s.index.inserted)
      (latest : s'.index.latest = s.index.latest)
  | committed (st : StagedCommittedEvent) (pos : DiskPos)
      (staged : StagedAppend rt req fenced s st)
      (disk : CommittedAppendDisk cfg rt s.disk st pos s'.disk)
      (inserted : s'.index.inserted = st.indexEntry pos :: s.index.inserted)
      (latest : s'.index.latest = st.indexEntry pos :: s.index.latest)

theorem PublishOnly.disk (h : PublishOnly s s') : s'.disk = s.disk := by
  unfold WriterCore.disk
  rw [h.sealed, h.active, h.segmentId, h.sidxCollector]

theorem commitAppend_effect (cfg : StoreConfig) (rt : Runtime) (flt : Faults)
    (req : AppendRequest) (fenced : Bool) (s : WriterCore) :
    AppendEffect cfg rt flt req fenced s
      (finalState (commitAppend cfg rt flt req (req.latest s.index) fenced s)) := by
  have hprep := Triple.and (@prepareAppend_triple s cfg rt flt req (req.latest s.index) fenced)
    (@prepareAppend_disk s cfg rt flt req (req.latest s.index) fenced) s rfl
  unfold commitAppend
  cases hp : prepareAppend cfg rt flt req (req.latest s.index) fenced s with
  | error e s' =>
      rw [hp] at hprep
      rw [bind_eq_error.mpr (.inl hp)]
      refine .failed hprep.2 ?_ ?_
      · rw [finalState_error, hprep.1.index]
      · rw [finalState_error, hprep.1.index]
  | ok p s₁ =>
      obtain ⟨st, pos⟩ := p
      rw [hp] at hprep
      obtain ⟨hprepared, d₁, hrotated, hpos, hdisk⟩ := hprep
      rw [bind_of_ok hp]
      dsimp only
      rcases commitStaged_eq flt req.idempotencyKey.isSome st pos s₁ with ⟨e, he⟩ | hok
      · rw [bind_eq_error.mpr (.inl he)]
        refine .failed
          ⟨d₁, [frameChunk rt st.frame], hrotated, .orphan st hprepared.staged, hdisk⟩ ?_ ?_
        · rw [finalState_error, hprepared.diskOnly.index]
        · rw [finalState_error, hprepared.diskOnly.index]
      · rw [bind_of_ok hok, finalState_bind_pure]
        have hpublish := (publishAppend_publishOnly fenced st pos
          (commitState req.idempotencyKey.isSome st pos s₁))
        unfold publishAppend at hpublish
        rw [finalState_bind_pure] at hpublish
        refine .committed st pos hprepared.staged ⟨d₁, hrotated, hpos, ?_⟩ ?_ ?_
        · rw [hpublish.disk, ← hdisk]
          rfl
        · rw [hpublish.inserted, ← hprepared.diskOnly.index]
          rfl
        · rw [hpublish.latest, ← hprepared.diskOnly.index]
          rfl

/-- The quiet work of the key lookup does not change what is staged. -/
theorem stagedAppend_quiet {req : AppendRequest} (hquiet : Uncommitted 0 s s₀)
    (hdisk : s₀.disk = s.disk) :
    StagedAppend rt req fenced s₀ = StagedAppend rt req fenced s := by
  funext st
  have hlatest : req.latest s₀.index = req.latest s.index := by
    unfold AppendRequest.latest StoreIndex.getLatestCommitted
    rw [hquiet.latest]
  have hsegment : s₀.segmentId = s.segmentId := congrArg DiskView.segmentId hdisk
  unfold StagedAppend
  rw [hlatest, hsegment, hquiet.globalSequence, fenceIdentity_congr hquiet.fenceLedger]

/-- An append after the quiet work of the key lookup is an append. -/
theorem AppendEffect.of_quiet {cfg : StoreConfig} {req : AppendRequest}
    (hquiet : Uncommitted 0 s s₀) (hdisk : s₀.disk = s.disk)
    (h : AppendEffect cfg rt flt req fenced s₀ s') : AppendEffect cfg rt flt req fenced s s' := by
  have hstaged : StagedAppend rt req fenced s₀ = StagedAppend rt req fenced s :=
    stagedAppend_quiet hquiet hdisk
  cases h with
  | failed disk inserted latest =>
      rw [hstaged, hdisk] at disk
      exact .failed disk (inserted.trans hquiet.inserted) (latest.trans hquiet.latest)
  | committed st pos staged disk inserted latest =>
      rw [hstaged] at staged
      rw [hdisk] at disk
      rw [hquiet.inserted] at inserted
      rw [hquiet.latest] at latest
      exact .committed st pos staged disk inserted latest

/-- An append is over before it writes, or runs into its commit after quiet work. Up to there
no platform call has been made. -/
theorem handleAppend_prelude (rt : Runtime) (req : AppendRequest) (fenced : Bool)
    (s : WriterCore) :
    (∃ r, Uncommitted 0 s (finalState r) ∧ (finalState r).disk = s.disk ∧
      ∀ cfg flt, handleAppend cfg rt flt req fenced s = r) ∨
    ∃ s₀, Uncommitted 0 s s₀ ∧ s₀.disk = s.disk ∧
      ∀ cfg flt, handleAppend cfg rt flt req fenced s =
        commitAppend cfg rt flt req (req.latest s₀.index) fenced s₀ := by
  rcases handleAppend_starts rt req fenced s with ⟨e, s', hquiet, hdisk, hrun⟩ |
    ⟨key, receipt, -, -, -, hrun⟩ | ⟨s₀, hquiet, hdisk, -, -, hrun⟩
  · exact .inl ⟨.error e s', hquiet, hdisk, hrun⟩
  · exact .inl ⟨.ok receipt s, Uncommitted.refl s, rfl, hrun⟩
  · have hlatest : req.latest s₀.index = req.latest s.index := by
      unfold AppendRequest.latest StoreIndex.getLatestCommitted
      rw [hquiet.latest]
    rw [← hlatest] at hrun
    exact .inr ⟨s₀, hquiet, hdisk, hrun⟩

theorem handleAppend_effect (cfg : StoreConfig) (rt : Runtime) (flt : Faults)
    (req : AppendRequest) (fenced : Bool) (s : WriterCore) :
    AppendEffect cfg rt flt req fenced s (finalState (handleAppend cfg rt flt req fenced s)) := by
  rcases handleAppend_prelude rt req fenced s with ⟨r, hquiet, hdisk, hrun⟩ |
    ⟨s₀, hquiet, hdisk, hrun⟩ <;> rw [hrun]
  · exact .failed ⟨s.disk, [], .stay, .nothing, hdisk⟩ hquiet.inserted hquiet.latest
  · exact (commitAppend_effect cfg rt flt req fenced s₀).of_quiet hquiet hdisk

/-! ### The batch -/

/-- The chunks of a whole batch. -/
def envelope (rt : Runtime) (batchId : Nat) (nowUs : Int) (nowMs : Nat)
    (staged : List StagedCommittedEvent) : List Chunk :=
  frameChunk rt (batchMarkerFrame batchId .systemBatchBegin staged.length nowUs nowMs) ::
    (staged.map (fun st => frameChunk rt st.frame) ++
      [frameChunk rt (batchMarkerFrame batchId .systemBatchCommit 0 nowUs nowMs)])

/-- Where the items of a batch end up: one after another behind the BEGIN marker. -/
def placesFrom (rt : Runtime) (d : DiskView) : List StagedCommittedEvent → List DiskPos
  | [] => []
  | st :: rest =>
      d.nextPos (rt.frameLength st.frame) :: placesFrom rt (d.put (frameChunk rt st.frame)) rest

@[simp] theorem putAll_nil (d : DiskView) : d.putAll [] = d := rfl

@[simp] theorem putAll_cons (d : DiskView) (c : Chunk) (cs : List Chunk) :
    d.putAll (c :: cs) = (d.put c).putAll cs := rfl

theorem putAll_append (d : DiskView) (cs cs' : List Chunk) :
    d.putAll (cs ++ cs') = (d.putAll cs).putAll cs' :=
  List.foldl_append

/-- The chunks a write that stopped leaves: a part of what was to be written, then perhaps
the torn beginning of the next chunk. -/
inductive Leftover (flt : Faults) (whole : List Chunk) : List Chunk → Prop where
  | part (n : Nat) : Leftover flt whole (whole.take n)
  | torn (n k : Nat) (more : n < whole.length) (tears : ¬flt.NoTear) :
      Leftover flt whole (whole.take n ++ [.torn k])

theorem Leftover.cons {c : Chunk} (h : Leftover flt whole left) :
    Leftover flt (c :: whole) (c :: left) := by
  cases h with
  | part n => exact .part (n + 1)
  | torn n k more tears => exact .torn (n + 1) k (Nat.succ_lt_succ more) tears

theorem Leftover.append (more : List Chunk) (h : Leftover flt whole left) :
    Leftover flt (whole ++ more) left := by
  cases h with
  | part n =>
      rcases Nat.le_total n whole.length with hle | hle
      · have htake : (whole ++ more).take n = whole.take n := List.take_append_of_le_length hle
        rw [← htake]
        exact .part n
      · have htake : (whole ++ more).take whole.length = whole.take n := by
          rw [List.take_left, List.take_of_length_le hle]
        rw [← htake]
        exact .part whole.length
  | torn n k hlt tears =>
      have htake : (whole ++ more).take n = whole.take n :=
        List.take_append_of_le_length (Nat.le_of_lt hlt)
      rw [← htake]
      refine .torn n k ?_ tears
      rw [List.length_append]
      omega

theorem Leftover.append_left (done : List Chunk) (h : Leftover flt whole left) :
    Leftover flt (done ++ whole) (done ++ left) := by
  induction done with
  | nil => exact h
  | cons c rest ih => exact ih.cons

theorem leftover_whole (whole : List Chunk) : Leftover flt whole whole := by
  have h : Leftover flt whole (whole.take whole.length) := .part _
  rw [List.take_length] at h
  exact h

/-- The event frames of a batch. -/
theorem writeBatchEventFrames_disk (rt : Runtime) (flt : Faults)
    (staged : List StagedCommittedEvent) :
    ∀ {d : DiskView} (idx : Nat),
      Triple (fun s => s.disk = d) (writeBatchEventFrames rt flt idx staged)
        (fun receipts s => receipts.map (·.diskPos) = placesFrom rt d staged ∧
          s.disk = d.putAll (staged.map fun st => frameChunk rt st.frame))
        (fun s => ∃ left, Leftover flt (staged.map fun st => frameChunk rt st.frame) left ∧
          s.disk = d.putAll left) := by
  induction staged with
  | nil =>
      intro d idx
      exact Triple.pure fun s hs => ⟨rfl, hs⟩
  | cons st rest ih =>
      intro d idx
      have hone : Triple (fun s => s.disk = d) (writeBatchEventFrame rt flt idx st)
          (fun receipt s => receipt.diskPos = d.nextPos (rt.frameLength st.frame) ∧
            s.disk = d.put (frameChunk rt st.frame))
          (fun s => ∃ left, Leftover flt ((st :: rest).map fun st => frameChunk rt st.frame) left ∧
            s.disk = d.putAll left) := by
        have hidle : ∀ s : WriterCore, s.disk = d → ∃ left,
            Leftover flt ((st :: rest).map fun st => frameChunk rt st.frame) left ∧
              s.disk = d.putAll left := fun s hs => ⟨[], .part 0, hs⟩
        apply batchFailedAt_triple
        refine Triple.bind (Q := fun _ s => s.disk = d)
          (Triple.conseq (liftExcept_triple _) (fun s hs => hs) (fun _ _ h => h.2) hidle)
          fun u => ?_
        refine Triple.bind (Q := fun length s => length = rt.frameLength st.frame ∧ s.disk = d)
          (Triple.conseq (liftExcept_triple _) (fun s hs => hs)
            (fun length s hl => ⟨frameEncode_ok hl.1, hl.2⟩) hidle) fun length => ?_
        rintro s ⟨rfl, hs⟩
        refine Triple.bind (Q := fun offset s => offset = d.active.writtenBytes ∧
            s.disk = d.put (frameChunk rt st.frame))
          (Triple.conseq (writeStaged_disk flt (idx + 1) st _) (fun t ht => ht) (fun _ _ h => h)
            ?_) (fun offset => ?_) s hs
        · rintro t ⟨k, tears, ht⟩
          exact ⟨[.torn k], .torn 0 k (Nat.succ_pos _) tears, ht⟩
        · rintro t ⟨rfl, ht⟩
          refine Triple.bind (Q := fun _ s => s.disk = d.put (frameChunk rt st.frame))
            (Triple.conseq (liftExcept_triple _) (fun s hs => hs) (fun _ _ h => h.2) ?_)
            (fun v => ?_) t ht
          · exact fun s hs => ⟨[frameChunk rt st.frame], .part 1, hs⟩
          · intro s hs
            refine ⟨?_, hs⟩
            have hid : s.segmentId = d.segmentId := congrArg DiskView.segmentId hs
            change (⟨s.segmentId, _, _⟩ : DiskPos) = _
            rw [hid]
            rfl
      apply Triple.bind hone
      rintro receipt s ⟨hreceipt, hs⟩
      refine Triple.bind (Triple.conseq (ih (idx + 1)) (fun s hs => hs) (fun _ _ h => h) ?_)
        (fun receipts => ?_) s hs
      · rintro t ⟨left, hleft, ht⟩
        exact ⟨frameChunk rt st.frame :: left, hleft.cons, ht⟩
      · rintro t ⟨hreceipts, ht⟩
        refine ⟨?_, ht⟩
        change receipt.diskPos :: receipts.map (·.diskPos) = _
        rw [hreceipt, hreceipts]
        rfl

theorem writeBatchMarkerFrame_disk {d : DiskView} (cfg : StoreConfig) (rt : Runtime)
    (flt : Faults) (i batchId : Nat) (kind : EventKind) (payloadSize : Nat) {nowUs : Int}
    {nowMs : Nat} (hnow : wallMsFromTimestampUs nowUs = .ok nowMs) (item : Nat)
    (allowRotation : Bool) :
    Triple (fun s => s.disk = d)
      (writeBatchMarkerFrame cfg rt flt i batchId kind payloadSize nowUs item allowRotation)
      (fun _ s => ∃ d₁, MayRotate cfg d d₁ ∧ (allowRotation = false → d₁ = d) ∧
        s.disk = d₁.put (frameChunk rt (batchMarkerFrame batchId kind payloadSize nowUs nowMs)))
      (fun s => ∃ d₁ left, MayRotate cfg d d₁ ∧ (allowRotation = false → d₁ = d) ∧
        Leftover flt [frameChunk rt (batchMarkerFrame batchId kind payloadSize nowUs nowMs)] left ∧
        s.disk = d₁.putAll left) := by
  have hidle : ∀ s : WriterCore, s.disk = d → ∃ d₁ left, MayRotate cfg d d₁ ∧
      (allowRotation = false → d₁ = d) ∧
      Leftover flt [frameChunk rt (batchMarkerFrame batchId kind payloadSize nowUs nowMs)] left ∧
      s.disk = d₁.putAll left := fun s hs => ⟨d, [], .stay, fun _ => rfl, .part 0, hs⟩
  apply batchFailedAt_triple
  refine Triple.bind (Q := fun ms s => ms = nowMs ∧ s.disk = d)
    (Triple.conseq (liftExcept_triple _) (fun s hs => hs) ?_ hidle) fun ms => ?_
  · rintro ms s ⟨hms, hs⟩
    rw [hnow] at hms
    cases hms
    exact ⟨rfl, hs⟩
  · rintro s ⟨rfl, hs⟩
    refine Triple.bind (Q := fun length s => length =
        rt.frameLength (batchMarkerFrame batchId kind payloadSize nowUs ms) ∧ s.disk = d)
      (Triple.conseq (liftExcept_triple _) (fun s hs => hs)
        (fun length s hl => ⟨frameEncode_ok hl.1, hl.2⟩) hidle) (fun length => ?_) s hs
    rintro s ⟨rfl, hs⟩
    have hrotate : Triple (fun s => s.disk = d) (rotateIf cfg flt allowRotation)
        (fun _ s => MayRotate cfg d s.disk ∧ (allowRotation = false → s.disk = d))
        (fun s => s.disk = d) := by
      cases allowRotation with
      | true =>
          exact Triple.onReturn (maybeRotateSegment_disk cfg flt)
            (fun _ s hs => ⟨hs, fun h => by cases h⟩)
      | false =>
          refine Triple.pure fun s hs => ?_
          rw [hs]
          exact ⟨.stay, fun _ => rfl⟩
    refine Triple.bind (Triple.conseq hrotate (fun s hs => hs) (fun _ _ h => h) hidle)
      (fun rotated => ?_) s hs
    rintro s ⟨hmay, hstay⟩
    refine Triple.conseq (writeFrame_disk flt i _ _) (fun t ht => ht) ?_ ?_ s rfl
    · rintro offset t ⟨-, ht⟩
      exact ⟨s.disk, hmay, hstay, ht⟩
    · rintro t ⟨k, tears, ht⟩
      exact ⟨s.disk, [.torn k], hmay, hstay, .torn 0 k (Nat.succ_pos _) tears, ht⟩

theorem precomputeBatchItems_disk {d : DiskView} (rt : Runtime) (ctx : BatchContext)
    (items : List BatchAppendItem) :
    ∀ (computed : List StagedCommittedEvent) (states : BatchEntityStates),
      Keeps (fun s => s.disk = d) (precomputeBatchItems rt ctx items computed states) := by
  induction items with
  | nil => exact fun computed states => Keeps.pure computed
  | cons item rest ih =>
      intro computed states
      unfold precomputeBatchItems
      apply Triple.bind (Triple.get fun s hs => hs)
      intro s
      apply Keeps.bind (liftExcept_keeps _)
      intro state
      apply Keeps.bind (liftExcept_keeps _)
      intro causation
      apply Keeps.bind (liftExcept_keeps _)
      intro nextClock
      refine Keeps.bind (Triple.modify fun s hs => ?_) fun u => ih _ _
      exact hs

/-- The events a batch stages. -/
def BatchStaged (rt : Runtime) (items : List BatchAppendItem) (firstSeq : Nat) (fenced : Bool)
    (s : WriterCore) (staged : List StagedCommittedEvent) : Prop :=
  ∃ ctx : BatchContext, ctx.firstSeq = firstSeq ∧ ctx.fence = fenceIdentity s fenced ∧
    StagedFrom rt ctx s.index [] items staged

/-- What a batch that failed leaves in the files. -/
inductive BatchLeftover (rt : Runtime) (flt : Faults) (firstSeq : Nat) (nowUs : Int)
    (batch : List StagedCommittedEvent → Prop) : List Chunk → Prop where
  | nothing : BatchLeftover rt flt firstSeq nowUs batch []
  | part (staged : List StagedCommittedEvent) (nowMs : Nat) (left : List Chunk)
      (h : batch staged) (hleft : Leftover flt (envelope rt firstSeq nowUs nowMs staged) left) :
      BatchLeftover rt flt firstSeq nowUs batch left

theorem StagedFrom.length_eq {ctx : BatchContext} {ix : StoreIndex}
    {prev : List StagedCommittedEvent} {new : List StagedCommittedEvent}
    (h : StagedFrom rt ctx ix prev items new) :
    new.length = items.length := by
  induction h with
  | nil prev => rfl
  | cons prev item rest state causation more lane bounded tail ih =>
      rw [List.length_cons, List.length_cons, ih]

/-- The files after a batch was written and synced as a whole. -/
def WrittenBatchDisk (cfg : StoreConfig) (rt : Runtime) (firstSeq : Nat) (nowUs : Int)
    (d : DiskView) (staged : List StagedCommittedEvent) (places : List DiskPos)
    (d' : DiskView) : Prop :=
  ∃ d₁ nowMs, MayRotate cfg d d₁ ∧ wallMsFromTimestampUs nowUs = .ok nowMs ∧
    places = placesFrom rt (d₁.put (frameChunk rt
      (batchMarkerFrame firstSeq .systemBatchBegin staged.length nowUs nowMs))) staged ∧
    d' = (d₁.putAll (envelope rt firstSeq nowUs nowMs staged)).sync

theorem prepareBatch_disk (cfg : StoreConfig) (rt : Runtime) (flt : Faults) (nowUs : Int)
    (items : List BatchAppendItem) (firstSeq : Nat) (fenced : Bool) :
    Triple (· = s₀) (prepareBatch cfg rt flt nowUs items firstSeq fenced)
      (fun p s => WrittenBatchDisk cfg rt firstSeq nowUs s₀.disk p.1 (p.2.map (·.diskPos)) s.disk)
      (fun s => ∃ d₁ left, MayRotate cfg s₀.disk d₁ ∧
        BatchLeftover rt flt firstSeq nowUs (BatchStaged rt items firstSeq fenced s₀) left ∧
        s.disk = d₁.putAll left) := by
  have hidle : ∀ s : WriterCore, s.disk = s₀.disk → ∃ d₁ left, MayRotate cfg s₀.disk d₁ ∧
      BatchLeftover rt flt firstSeq nowUs (BatchStaged rt items firstSeq fenced s₀) left ∧
      s.disk = d₁.putAll left := fun s hs => ⟨s₀.disk, [], .stay, .nothing, hs⟩
  refine Triple.bind (Q := fun nowMs s => wallMsFromTimestampUs nowUs = .ok nowMs ∧ s = s₀)
    (Triple.conseq (batchFailedAt_triple 0 (liftExcept_triple _)) (fun s hs => hs)
      (fun _ _ h => h) fun s hs => hidle s (by rw [hs])) fun nowMs => ?_
  rintro s ⟨hnow, rfl⟩
  refine Triple.bind (Q := fun t s' => t = s' ∧ s' = s) (Triple.get fun s' hs => ⟨rfl, hs⟩)
    (fun t => ?_) s rfl
  rintro t' ⟨rfl, rfl⟩
  have hpre := Triple.and
    (Triple.conseq (@precomputeBatchItems_triple t rt
      ⟨nowUs, nowMs, firstSeq, t.segmentId, fenceIdentity t fenced⟩ items [])
      (fun s (hs : s = t) => hs ▸ DiskOnly.refl _) (fun _ _ h => h) fun _ h => h)
    (Triple.conseq (@precomputeBatchItems_disk t.disk rt
      ⟨nowUs, nowMs, firstSeq, t.segmentId, fenceIdentity t fenced⟩ items [] [])
      (fun s (hs : s = t) => by rw [hs]) (fun _ _ h => h) fun _ h => h)
  refine Triple.bind (Q := fun staged s => BatchStaged rt items firstSeq fenced t staged ∧
      s.disk = t.disk)
    (Triple.conseq hpre (fun s hs => hs) ?_ fun s hs => hidle s hs.2) (fun staged => ?_) t rfl
  · rintro staged s ⟨⟨-, new, rfl, hstaged⟩, hs⟩
    exact ⟨⟨_, rfl, rfl, hstaged⟩, hs⟩
  · rintro s ⟨hstaged, hs⟩
    refine Triple.bind (Q := fun _ s => s.disk = t.disk)
      (Triple.conseq (liftExcept_triple _) (fun s hs => hs) (fun _ _ h => h.2) hidle)
      (fun u => ?_) s hs
    intro s hs
    have hcount : items.length = staged.length := by
      obtain ⟨ctx, -, -, hfrom⟩ := hstaged
      exact hfrom.length_eq.symm
    -- each failure from here on leaves a part of the envelope
    have hpart : ∀ {d₁ : DiskView} {left : List Chunk} (s : WriterCore), MayRotate cfg t.disk d₁ →
        Leftover flt (envelope rt firstSeq nowUs nowMs staged) left → s.disk = d₁.putAll left →
        ∃ d₁ left, MayRotate cfg t.disk d₁ ∧
          BatchLeftover rt flt firstSeq nowUs (BatchStaged rt items firstSeq fenced t) left ∧
          s.disk = d₁.putAll left :=
      fun s hmay hleft hs => ⟨_, _, hmay, .part staged nowMs _ hstaged hleft, hs⟩
    refine Triple.bind (Q := fun _ s => ∃ d₁, MayRotate cfg t.disk d₁ ∧ s.disk = d₁.put (frameChunk
        rt (batchMarkerFrame firstSeq .systemBatchBegin staged.length nowUs nowMs)))
      (Triple.conseq (writeBatchMarkerFrame_disk cfg rt flt 0 firstSeq .systemBatchBegin
        items.length hnow 0 true) (fun s hs => hs) ?_ ?_) (fun beginAt => ?_) s hs
    · rintro offset s ⟨d₁, hmay, -, hs⟩
      rw [hcount] at hs
      exact ⟨d₁, hmay, hs⟩
    · rintro s ⟨d₁, left, hmay, -, hleft, hs⟩
      rw [hcount] at hleft
      exact hpart s hmay (hleft.append _) hs
    · rintro s ⟨d₁, hmay, hs⟩
      refine Triple.bind (Q := fun receipts s => receipts.map (·.diskPos) = placesFrom rt
          (d₁.put (frameChunk rt
            (batchMarkerFrame firstSeq .systemBatchBegin staged.length nowUs nowMs))) staged ∧
          s.disk = (d₁.put (frameChunk rt (batchMarkerFrame firstSeq .systemBatchBegin
            staged.length nowUs nowMs))).putAll (staged.map fun st => frameChunk rt st.frame))
        (Triple.conseq (writeBatchEventFrames_disk rt flt staged 0) (fun s hs => hs)
          (fun _ _ h => h) ?_) (fun receipts => ?_) s hs
      · rintro s ⟨left, hleft, hs⟩
        exact hpart s hmay (hleft.append _).cons hs
      · rintro s ⟨hplaces, hs⟩
        refine Triple.bind (Q := fun _ s => s.disk =
            d₁.putAll (envelope rt firstSeq nowUs nowMs staged))
          (Triple.conseq (writeBatchMarkerFrame_disk cfg rt flt (items.length + 1) firstSeq
            .systemBatchCommit 0 hnow (items.length - 1) false) (fun s hs => hs) ?_ ?_)
          (fun commitAt => ?_) s hs
        · rintro offset s ⟨d₂, -, hstay, hs⟩
          rw [hstay rfl] at hs
          rw [hs, envelope, putAll_cons, putAll_append]
          rfl
        · rintro s ⟨d₂, left, -, hstay, hleft, hs⟩
          rw [hstay rfl, ← putAll_append, ← putAll_cons] at hs
          exact hpart s hmay (hleft.append_left _).cons hs
        · intro s hs
          refine Triple.bind (Triple.onError (syncBatch_triple (syncActiveSegment_disk flt) _) ?_)
            (fun v => ?_) s hs
          · exact fun s hs => hpart s hmay (leftover_whole _) hs
          · exact Triple.pure fun s hs => ⟨d₁, nowMs, hmay, hnow, hplaces, hs⟩

@[simp] theorem collect_nil (d : DiskView) : d.collect [] = d := by
  simp [DiskView.collect]

theorem collect_collect (d : DiskView) (rows more : List SidxEntry) :
    (d.collect rows).collect more = d.collect (rows ++ more) := by
  simp [DiskView.collect]

theorem recordSidxEntries_disk (flt : Faults) (rows : List SidxEntry) :
    ∀ {d : DiskView} (idx : Nat),
      Triple (fun s => s.disk = d) (recordSidxEntries flt idx rows)
        (fun _ s => s.disk = d.collect rows) (fun s => ∃ n, s.disk = d.collect (rows.take n)) := by
  induction rows with
  | nil =>
      intro d idx
      refine Triple.pure fun s hs => ?_
      rw [collect_nil]
      exact hs
  | cons row rest ih =>
      intro d idx
      unfold recordSidxEntries
      refine Triple.bind (Q := fun _ s => s.disk = d)
        (Triple.conseq (liftExcept_triple _) (fun s hs => hs) (fun _ _ h => h.2) ?_) fun u => ?_
      · intro s hs
        refine ⟨0, ?_⟩
        rw [List.take_zero, collect_nil]
        exact hs
      · refine Triple.bind (Q := fun _ s => s.disk = d.collect [row])
          (Triple.modify fun s hs => ?_) fun v => ?_
        · rw [← hs]
          rfl
        · refine Triple.conseq (ih (idx + 1)) (fun s hs => hs) ?_ ?_
          · intro w s hs
            rw [hs, collect_collect]
            rfl
          · rintro s ⟨n, hs⟩
            refine ⟨n + 1, ?_⟩
            rw [hs, collect_collect]
            rfl

/-- Staging reads the index only through the chain heads. -/
theorem StagedFrom.of_latest {ctx : BatchContext} {ix ix' : StoreIndex}
    {prev : List StagedCommittedEvent} {new : List StagedCommittedEvent}
    (h : StagedFrom rt ctx ix prev items new) (hlatest : ix'.latest = ix.latest) :
    StagedFrom rt ctx ix' prev items new := by
  have hstate : ∀ states item, entityState ix' states item = entityState ix states item := by
    intro states item
    unfold entityState StoreIndex.getLatestCommitted
    rw [hlatest]
  induction h with
  | nil prev => exact .nil prev
  | cons prev item rest state causation more lane bounded tail ih =>
      refine .cons prev item rest state causation more ?_ bounded ih
      rw [hstate]
      exact lane

theorem BatchStaged.of_quiet {firstSeq n : Nat} {staged : List StagedCommittedEvent}
    (h : BatchStaged rt items firstSeq fenced s₀ staged) (hquiet : Uncommitted n s s₀) :
    BatchStaged rt items firstSeq fenced s staged := by
  obtain ⟨ctx, hfirst, hfence, hfrom⟩ := h
  exact ⟨ctx, hfirst, hfence.trans (fenceIdentity_congr hquiet.fenceLedger _),
    hfrom.of_latest hquiet.latest.symm⟩

/-- Everything a batch can do, to the index and to the files. -/
inductive BatchEffect (cfg : StoreConfig) (rt : Runtime) (flt : Faults) (nowUs : Int)
    (items : List BatchAppendItem) (fenced : Bool) (s s' : WriterCore) : Prop where
  | failed (d₁ : DiskView) (left : List Chunk) (rotated : MayRotate cfg s.disk d₁)
      (leftover : BatchLeftover rt flt s.index.globalSequence nowUs
        (BatchStaged rt items s.index.globalSequence fenced s) left)
      (disk : s'.disk = d₁.putAll left) (inserted : s'.index.inserted = s.index.inserted)
      (latest : s'.index.latest = s.index.latest)
  | unrecorded (staged : List StagedCommittedEvent) (receipts : List AppendReceipt)
      (d₁ : DiskView) (n : Nat)
      (batch : BatchStaged rt items s.index.globalSequence fenced s staged)
      (written : WrittenBatchDisk cfg rt s.index.globalSequence nowUs s.disk staged
        (receipts.map (·.diskPos)) d₁)
      (disk : s'.disk = d₁.collect ((batchRows staged receipts).take n))
      (inserted : s'.index.inserted = s.index.inserted)
      (latest : s'.index.latest = s.index.latest)
  | committed (staged : List StagedCommittedEvent) (receipts : List AppendReceipt)
      (d₁ : DiskView) (nonempty : items ≠ [])
      (batch : BatchStaged rt items s.index.globalSequence fenced s staged)
      (written : WrittenBatchDisk cfg rt s.index.globalSequence nowUs s.disk staged
        (receipts.map (·.diskPos)) d₁)
      (disk : s'.disk = d₁.collect (batchRows staged receipts))
      (inserted : s'.index.inserted = (batchEntries staged receipts).reverse ++ s.index.inserted)
      (latest : s'.index.latest = (batchEntries staged receipts).reverse ++ s.index.latest)

theorem commitBatch_disk (flt : Faults) (keyed : Bool) (staged : List StagedCommittedEvent)
    (receipts : List AppendReceipt) {e : StoreError}
    (h : commitBatch flt keyed staged receipts s = .error e s') :
    ∃ n, s'.disk = s.disk.collect ((batchRows staged receipts).take n) := by
  unfold commitBatch at h
  have hkeep : Keeps (fun t => t.disk = s.disk)
      (liftExcept (ensure (!flt.intern) .internerExhausted)) := liftExcept_keeps _
  have hlifted := hkeep s rfl
  rcases bind_eq_error.mp h with hlift | ⟨u, s₁, hlift, hrest⟩
  · refine ⟨0, ?_⟩
    rw [hlift] at hlifted
    rw [List.take_zero, collect_nil]
    exact hlifted
  · rw [hlift] at hlifted
    have hs₁ : s₁.disk = s.disk := hlifted
    rcases bind_eq_error.mp hrest with hrecord | ⟨v, s₂, hrecord, hmodify⟩
    · have hrecorded := recordSidxEntries_disk flt (batchRows staged receipts) 0 s₁ hs₁
      unfold batchRows at hrecorded ⊢
      rw [hrecord] at hrecorded
      exact hrecorded
    · cases hmodify

theorem handlePreparedBatch_effect (cfg : StoreConfig) (rt : Runtime) (flt : Faults) (nowUs : Int)
    (hitems : items ≠ []) (fenced : Bool) (s : WriterCore) :
    BatchEffect cfg rt flt nowUs items fenced s
      (finalState (handlePreparedBatch cfg rt flt nowUs items fenced s)) := by
  have hreserve : reserveSequences items.length s =
      .ok s.index.globalSequence (reserved items.length s) := rfl
  have hquiet : Uncommitted items.length s (reserved items.length s) :=
    (Uncommitted.refl s).reserve items.length
  unfold handlePreparedBatch
  rw [bind_of_ok hreserve]
  have hprep := Triple.and
    (Triple.conseq (@prepareBatch_triple (reserved items.length s) cfg rt flt nowUs items
        s.index.globalSequence fenced)
      (fun t (ht : t = reserved items.length s) => ht ▸ DiskOnly.refl _) (fun _ _ h => h)
      fun _ h => h)
    (@prepareBatch_disk (reserved items.length s) cfg rt flt nowUs items s.index.globalSequence
      fenced) _ rfl
  cases hp : prepareBatch cfg rt flt nowUs items s.index.globalSequence fenced
      (reserved items.length s) with
  | error e s' =>
      rw [hp] at hprep
      rw [bind_eq_error.mpr (.inl hp)]
      obtain ⟨hdisk, d₁, left, hmay, hleft, hs'⟩ := hprep
      refine .failed d₁ left hmay ?_ hs' ?_ ?_
      · cases hleft with
        | nothing => exact .nothing
        | part staged nowMs left h hleft => exact .part staged nowMs left (h.of_quiet hquiet) hleft
      · rw [finalState_error, hdisk.index]
        rfl
      · rw [finalState_error, hdisk.index]
        rfl
  | ok p s₁ =>
      obtain ⟨staged, receipts⟩ := p
      rw [hp] at hprep
      obtain ⟨hprepared, hwritten⟩ := hprep
      have hbatch : BatchStaged rt items s.index.globalSequence fenced s staged :=
        BatchStaged.of_quiet hprepared.stagedFrom hquiet
      rw [bind_of_ok hp]
      dsimp only
      rcases commitBatch_cases flt (items.any fun i => i.idempotencyKey.isSome) staged receipts s₁
        with ⟨e, s', he, hs'⟩ | hok
      · rw [bind_eq_error.mpr (.inl he)]
        obtain ⟨n, hn⟩ := commitBatch_disk flt _ staged receipts he
        refine .unrecorded staged receipts s₁.disk n hbatch hwritten hn ?_ ?_
        · rw [finalState_error, hs'.index, hprepared.diskOnly.index]
          rfl
        · rw [finalState_error, hs'.index, hprepared.diskOnly.index]
          rfl
      · rw [bind_of_ok hok, finalState_bind_pure]
        have hpublish := publishCommitted_publishOnly fenced s.index.globalSequence
          (s.index.globalSequence + items.length) (batchFrontier staged)
          (staged.map (·.notification)) (commitBatchState
            (items.any fun i => i.idempotencyKey.isSome) staged receipts s₁)
        have hfinal := Post.finalState hpublish
        refine .committed staged receipts s₁.disk hitems hbatch hwritten ?_ ?_ ?_
        · rw [hfinal.disk]
          rfl
        · rw [hfinal.inserted]
          simp only [commitBatchState, StoreIndex.insertBatch_inserted]
          rw [hprepared.diskOnly.index]
          rfl
        · rw [hfinal.latest]
          simp only [commitBatchState, StoreIndex.insertBatch_latest]
          rw [hprepared.diskOnly.index]
          rfl

/-- A batch after the quiet work of the key admission is a batch. -/
theorem BatchEffect.of_quiet {cfg : StoreConfig} {nowUs : Int} (hquiet : Uncommitted 0 s s₀)
    (hdisk : s₀.disk = s.disk) (h : BatchEffect cfg rt flt nowUs items fenced s₀ s') :
    BatchEffect cfg rt flt nowUs items fenced s s' := by
  have hsequence := hquiet.globalSequence
  cases h with
  | failed d₁ left rotated leftover disk inserted latest =>
      rw [hdisk] at rotated
      rw [hsequence] at leftover
      refine .failed d₁ left rotated ?_ disk (inserted.trans hquiet.inserted)
        (latest.trans hquiet.latest)
      cases leftover with
      | nothing => exact .nothing
      | part staged nowMs left h hleft => exact .part staged nowMs left (h.of_quiet hquiet) hleft
  | unrecorded staged receipts d₁ n batch written disk inserted latest =>
      rw [hsequence] at batch written
      rw [hdisk] at written
      exact .unrecorded staged receipts d₁ n (batch.of_quiet hquiet) written disk
        (inserted.trans hquiet.inserted) (latest.trans hquiet.latest)
  | committed staged receipts d₁ nonempty batch written disk inserted latest =>
      rw [hsequence] at batch written
      rw [hdisk] at written
      rw [hquiet.inserted] at inserted
      rw [hquiet.latest] at latest
      exact .committed staged receipts d₁ nonempty (batch.of_quiet hquiet) written disk inserted
        latest

/-- A batch is over before it reserves, or runs prepared after quiet work. Up to there no
platform call has been made. -/
theorem handleAppendBatch_prelude (cfg : StoreConfig) (rt : Runtime) (nowUs : Int)
    (items : List BatchAppendItem) (fenced : Bool) (s : WriterCore) :
    (∃ r, Uncommitted 0 s (finalState r) ∧ (finalState r).disk = s.disk ∧
      ∀ flt, handleAppendBatch cfg rt flt nowUs items fenced s = r) ∨
    ∃ s₀, items ≠ [] ∧ validateBatch cfg rt items = .ok () ∧ Uncommitted 0 s s₀ ∧
      s₀.disk = s.disk ∧ ∀ flt, handleAppendBatch cfg rt flt nowUs items fenced s =
        handlePreparedBatch cfg rt flt nowUs items fenced s₀ := by
  rcases handleAppendBatch_starts cfg rt nowUs items fenced s with
    ⟨e, s', hquiet, hdisk, hrun⟩ | ⟨receipts, -, hrun⟩ |
    ⟨s₀, hne, hvalid, -, -, hquiet, hdisk, hrun⟩
  · exact .inl ⟨.error e s', hquiet, hdisk, hrun⟩
  · exact .inl ⟨.ok receipts s, Uncommitted.refl s, rfl, hrun⟩
  · exact .inr ⟨s₀, hne, hvalid, hquiet, hdisk, hrun⟩

theorem handleAppendBatch_effect (cfg : StoreConfig) (rt : Runtime) (flt : Faults) (nowUs : Int)
    (items : List BatchAppendItem) (fenced : Bool) (s : WriterCore) :
    BatchEffect cfg rt flt nowUs items fenced s
      (finalState (handleAppendBatch cfg rt flt nowUs items fenced s)) := by
  rcases handleAppendBatch_prelude cfg rt nowUs items fenced s with ⟨r, hquiet, hdisk, hrun⟩ |
    ⟨s₀, hempty, -, hquiet, hdisk, hrun⟩ <;> rw [hrun]
  · exact .failed s.disk [] .stay .nothing hdisk hquiet.inserted hquiet.latest
  · exact (handlePreparedBatch_effect cfg rt flt nowUs hempty fenced s₀).of_quiet hquiet hdisk

end Batpak.Store
