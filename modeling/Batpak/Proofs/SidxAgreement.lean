/-
Module: Batpak.Proofs.SidxAgreement
Purpose: A sealed file read through its SIDX footer and read frame by frame: the same entries
  in the same order, as long as every frame that reached the file was recorded.
Trusted boundary: none
Main exports: recordedLife, sidx_agrees_of_recorded_life
-/
import Batpak.Proofs.BatchRecovery
import Batpak.Proofs.DiskInvariant
import Batpak.Proofs.LifecycleInvariant
import Batpak.Proofs.RecordedEffects
import Batpak.Proofs.RestoredIndex

namespace Batpak.Store

open Batpak.Util

variable {d : DiskView}

/-! ### What is compared -/

/-- A scanned entry without the stored sequence and the receipt extensions. -/
def ScannedIndexEntry.bare (se : ScannedIndexEntry) : ScannedIndexEntry :=
  { se with receiptExtensions := [], globalSequence := none }

/-- The footer of a file, through the fast path and through the parallel rebuild, gives the
entries that a scan of its frames from an empty batch state gives. -/
def SidxAgrees (seg : Segment) : Prop :=
  ∀ rows, seg.footer = some rows → ∃ st found,
    (∀ policy, frameScanSegment policy seg .initial = .ok (st, found)) ∧
    (footerEntries seg.id rows).map (·.bare) = found.map (·.bare) ∧
    (∀ policy activeId, ∃ st' entries, scanSegment policy activeId seg .initial = .ok (st', entries) ∧
      entries.map (·.bare) = found.map (·.bare)) ∧
    ∀ segments : List Segment, (segments.find? fun other => other.id == seg.id) = some seg →
      ∃ entries, scannedEntriesFromSidxFooter segments seg = .ok entries ∧
        entries.map (·.bare) = found.map (·.bare)

/-! ### The active file and the rows collected for it -/

/-- Every frame of the active file can be scanned, and the scan finds what the collected rows
say. -/
structure Recorded (d : DiskView) : Prop where
  id : d.active.id = d.segmentId
  whole : ∀ c ∈ d.active.chunks, c.isWhole = true
  fits : ∀ p ∈ d.active.located, FitsFrame p
  offset : d.active.writtenBytes = d.active.framesEnd
  scan : ∃ st found, scanLog d.active.located .initial = .ok (st, found) ∧ Between false st ∧
    (footerEntries d.active.id d.collector).map (·.bare) = found.map (·.bare)
  placed : ∀ row ∈ d.collector, ∃ p ∈ d.active.located,
    p.2 = ⟨d.active.id, row.frameOffset, row.frameLength⟩

theorem footerEntries_append (id : Nat) (a b : List SidxEntry) :
    footerEntries id (a ++ b) = footerEntries id a ++ footerEntries id b := by
  simp [footerEntries]

section Extend

/-- Whole chunks move the written-bytes counter to the end of the file. -/
theorem writtenBytes_putAll {cs : List Chunk} (hwhole : ∀ c ∈ cs, c.isWhole = true)
    (h : d.active.writtenBytes = d.active.framesEnd) :
    (d.putAll cs).active.writtenBytes = (d.putAll cs).active.framesEnd := by
  induction cs generalizing d with
  | nil => exact h
  | cons c rest ih =>
      apply ih fun c' hc' => hwhole c' (List.mem_cons_of_mem _ hc')
      have hc := hwhole c List.mem_cons_self
      rw [framesEnd_put]
      cases c with
      | frame f length =>
          change d.active.writtenBytes + length = _
          rw [h]
          rfl
      | torn k => cases hc

theorem id_putAll (d : DiskView) (cs : List Chunk) :
    (d.putAll cs).active.id = d.active.id ∧ (d.putAll cs).segmentId = d.segmentId ∧
      (d.putAll cs).collector = d.collector ∧ (d.putAll cs).active.footer = d.active.footer ∧
      (d.putAll cs).sealed = d.sealed := by
  induction cs generalizing d with
  | nil => exact ⟨rfl, rfl, rfl, rfl, rfl⟩
  | cons c rest ih => exact ih (d.put c)

/-- What a recorded step writes, a single event or a whole batch, is scanned behind what was
there before; the rows of its events follow the rows collected before. -/
theorem Recorded.extend {limit : Nat} (h : Recorded d) (hlimit : limit ≤ maxBatchRecoveryItems)
    {cs : List Chunk} {rows : List SidxEntry} {w : List (Frame × DiskPos)}
    (hw : Segment.locate d.active.id d.active.framesEnd cs = w)
    (hwhole : ∀ c ∈ cs, c.isWhole = true) (hstep : StepLog limit w) (hne : w ≠ [])
    (hclosed : (startsBatch w && !endsCommitted w) = false) (hfits : ∀ p ∈ w, FitsFrame p)
    (hrows : (footerEntries d.active.id rows).map (·.bare) =
      (scannedOf (committedEvents w)).map (·.bare))
    (hplaced : ∀ row ∈ rows, ∃ p ∈ w, p.2 = ⟨d.active.id, row.frameOffset, row.frameLength⟩) :
    Recorded ((d.putAll cs).collect rows) := by
  obtain ⟨hid, hsegment, hcollector, -, -⟩ := id_putAll d cs
  have hlocated : (d.putAll cs).active.located = d.active.located ++ w := by
    rw [located_putAll, hw]
  obtain ⟨st, found, hscan, hbetween, hbare⟩ := h.scan
  obtain ⟨st', unfinished, out, hnext, hbetween', hcases⟩ := scanLog_step hlimit hstep hbetween
  have hout : out = scannedOf (committedEvents w) ∧ unfinished = false := by
    rcases hcases with ⟨hnil, -, -⟩ | ⟨-, -, hout, hunfinished⟩ | ⟨-, hopen, -, -, -⟩
    · exact absurd hnil hne
    · exact ⟨hout, hunfinished.trans hclosed⟩
    · cases hopen
  obtain ⟨rfl, rfl⟩ := hout
  exact {
    id := hid.trans (h.id.trans hsegment.symm)
    whole := fun c hc => by
      change c ∈ (d.putAll cs).active.chunks at hc
      rw [chunks_putAll] at hc
      rcases List.mem_append.mp hc with hc | hc
      · exact h.whole c hc
      · exact hwhole c hc
    fits := fun p hp => by
      change p ∈ (d.putAll cs).active.located at hp
      rw [hlocated] at hp
      rcases List.mem_append.mp hp with hp | hp
      · exact h.fits p hp
      · exact hfits p hp
    offset := writtenBytes_putAll hwhole h.offset
    scan := by
      refine ⟨st', found ++ scannedOf (committedEvents w), ?_, hbetween', ?_⟩
      · change scanLog (d.putAll cs).active.located .initial = _
        rw [hlocated, scanLog, scan_append_ok hscan]
        change yieldFirst found (scanLog w st) = _
        rw [hnext]
        rfl
      · change (footerEntries (d.putAll cs).active.id ((d.putAll cs).collector ++ rows)).map _ = _
        rw [hid, hcollector, footerEntries_append, List.map_append, List.map_append, hbare, hrows]
    placed := fun row hrow => by
      change ∃ p ∈ (d.putAll cs).active.located, p.2 = ⟨(d.putAll cs).active.id, _, _⟩
      rw [hlocated, hid]
      change row ∈ (d.putAll cs).collector ++ rows at hrow
      rw [hcollector] at hrow
      rcases List.mem_append.mp hrow with hrow | hrow
      · obtain ⟨p, hp, hpos⟩ := h.placed row hrow
        exact ⟨p, List.mem_append_left _ hp, hpos⟩
      · obtain ⟨p, hp, hpos⟩ := hplaced row hrow
        exact ⟨p, List.mem_append_right _ hp, hpos⟩ }

theorem Recorded.sync (h : Recorded d) : Recorded d.sync :=
  ⟨h.id, h.whole, h.fits, h.offset, h.scan, h.placed⟩

theorem Recorded.create (cfg : StoreConfig) (sealed : List Segment) (id : Nat) :
    Recorded ⟨sealed, .create id cfg.headerBytes, id, []⟩ where
  id := rfl
  whole c hc := by cases hc
  fits p hp := by cases hp
  offset := rfl
  scan := ⟨.initial, [], rfl, ⟨rfl, fun _ => rfl⟩, rfl⟩
  placed row hrow := by cases hrow

end Extend

/-! ### Sealing -/

section Seal

/-- The rows of a recorded file, written as its footer, agree with its frames. -/
theorem Recorded.agrees (h : Recorded d) {seg : Segment} (hid : seg.id = d.active.id)
    (hheader : seg.headerBytes = d.active.headerBytes) (hchunks : seg.chunks = d.active.chunks)
    (hfooter : ∀ rows, seg.footer = some rows → rows = d.collector) : SidxAgrees seg := by
  intro rows hrows
  obtain rfl := hfooter rows hrows
  obtain ⟨st, found, hscan, -, hbare⟩ := h.scan
  have hlocated : seg.located = d.active.located := by
    unfold Segment.located
    rw [hid, hheader, hchunks]
  have hframes : ∀ policy, frameScanSegment policy seg .initial = .ok (st, found) := by
    intro policy
    unfold frameScanSegment
    rw [scanChunks_whole policy _ seg.id seg.chunks seg.headerBytes .initial]
    · change scanLog seg.located .initial = _
      rw [hlocated, hscan]
    · rw [hchunks]
      exact h.whole
    · intro p hp
      change p ∈ seg.located at hp
      rw [hlocated] at hp
      exact h.fits p hp
  rw [← hid] at hbare
  refine ⟨st, found, hframes, hbare, ?_, ?_⟩
  · intro policy activeId
    unfold scanSegment
    rw [hrows]
    dsimp only
    split
    · exact ⟨_, _, rfl, hbare⟩
    · exact ⟨_, _, hframes policy, rfl⟩
  · intro segments hfind
    unfold scannedEntriesFromSidxFooter
    rw [hrows, ← hbare]
    apply mapM_ok_of_forall
    intro se hse
    obtain ⟨row, hrow, rfl⟩ := List.mem_map.mp hse
    obtain ⟨p, hp, hpos⟩ := h.placed row (List.mem_of_mem_filter hrow)
    rw [← hid] at hpos
    have hfound : (seg.located.find? fun q => q.2 == ⟨seg.id, row.frameOffset,
        row.frameLength⟩).isSome = true := by
      rw [List.find?_isSome]
      exact ⟨p, hlocated ▸ hp, by rw [hpos]; exact beq_self_eq_true _⟩
    obtain ⟨q, hq⟩ := Option.isSome_iff_exists.mp hfound
    have hread : readReceiptExtensions segments
        (ScannedIndexEntry.fromColdStartRow seg.id row).diskPos = some q.1.receiptExtensions := by
      change ((segments.find? fun other => other.id == seg.id).bind _) = _
      rw [hfind]
      change (seg.located.find? fun q => q.2 == ⟨seg.id, row.frameOffset, row.frameLength⟩).map _ = _
      rw [hq]
      rfl
    rw [hread]
    exact ⟨_, rfl, rfl⟩

/-- Sealing a recorded file and starting the next one. -/
theorem Recorded.rotated {cfg : StoreConfig} {d d' : DiskView} (h : Recorded d)
    (hfooter : d.active.footer = none) (hsealed : ∀ seg ∈ d.sealed, SidxAgrees seg)
    (hrotated : MayRotate cfg d d') :
    Recorded d' ∧ d'.active.footer = none ∧ ∀ seg ∈ d'.sealed, SidxAgrees seg := by
  cases hrotated with
  | stay => exact ⟨h, hfooter, hsealed⟩
  | rotate footerFails full =>
      refine ⟨Recorded.create cfg _ _, rfl, ?_⟩
      intro seg hseg
      rcases List.mem_append.mp hseg with hseg | hseg
      · exact hsealed seg hseg
      · rw [List.mem_singleton.mp hseg]
        cases footerFails with
        | true =>
            intro rows hrows
            change d.active.footer = some rows at hrows
            rw [hfooter] at hrows
            cases hrows
        | false =>
            apply h.agrees
            · rfl
            · rfl
            · rfl
            · rintro rows ⟨⟩
              rfl

end Seal

/-! ### Rows and frames -/

/-- The row of an event says what its frame says. -/
theorem bare_sidxEntry {id : Nat} {st : StagedCommittedEvent} {pos : DiskPos}
    (hpos : pos.segmentId = id)
    (hcause : st.causationId.filter (· ≠ 0) = st.frame.causationId) :
    (ScannedIndexEntry.fromColdStartRow id (st.sidxEntry pos)).bare =
      (ScannedIndexEntry.ofFrame st.frame pos).bare := by
  subst hpos
  simp only [ScannedIndexEntry.fromColdStartRow, StagedCommittedEvent.sidxEntry,
    ScannedIndexEntry.ofFrame, ScannedIndexEntry.bare, hcause]

theorem stageAppend_cause {rt : Runtime} {req : AppendRequest} {latest : Option IndexEntry}
    {segmentId seq : Nat} {fence : Option Nat} {st : StagedCommittedEvent}
    (h : stageAppend rt req latest segmentId seq fence = .ok st) :
    st.causationId.filter (· ≠ 0) = st.frame.causationId := by
  obtain ⟨clock, -, h⟩ := bindOk_iff.mp h
  obtain ⟨rawMs, -, h⟩ := bindOk_iff.mp h
  cases h
  rfl

theorem stagedItems_cause {rt : Runtime} {items : List BatchAppendItem} (ctx : BatchContext)
    (ix : StoreIndex) (earlier : List BatchAppendItem) :
    ∀ st ∈ stagedItems rt ctx ix earlier items, st.causationId = st.frame.causationId := by
  intro st hst
  obtain ⟨before, item, rfl⟩ := exists_stagedItem st hst
  rfl

/-- The rows of placed events, read back, are their frames scanned. -/
theorem bare_footerEntries {id : Nat} {placed : List (StagedCommittedEvent × DiskPos)}
    (hpos : ∀ p ∈ placed, p.2.segmentId = id)
    (hkind : ∀ p ∈ placed, p.1.frame.kind.isBatchMarker = false)
    (hcause : ∀ p ∈ placed, p.1.causationId.filter (· ≠ 0) = p.1.frame.causationId) :
    (footerEntries id (placed.map fun p => p.1.sidxEntry p.2)).map (·.bare) =
      (scannedOf (placed.map fun p => (p.1.frame, p.2))).map (·.bare) := by
  induction placed with
  | nil => rfl
  | cons p rest ih =>
      have hhead := bare_sidxEntry (hpos p List.mem_cons_self) (hcause p List.mem_cons_self)
      have htail := ih (fun q hq => hpos q (List.mem_cons_of_mem _ hq))
        (fun q hq => hkind q (List.mem_cons_of_mem _ hq))
        (fun q hq => hcause q (List.mem_cons_of_mem _ hq))
      have hevent : footerEntries id [p.1.sidxEntry p.2] =
          [.fromColdStartRow id (p.1.sidxEntry p.2)] := by
        have hrow : (p.1.sidxEntry p.2).kind.isBatchMarker = false := hkind p List.mem_cons_self
        simp [footerEntries, hrow]
      rw [List.map_cons, List.map_cons, ← List.singleton_append, footerEntries_append,
        List.map_append, hevent, htail]
      exact congrArg (· :: _) hhead

/-- The events of a batch lie in the file where their receipts say. -/
theorem locate_staged {rt : Runtime} {d : DiskView} (staged : List StagedCommittedEvent) :
    Segment.locate d.segmentId d.active.writtenBytes (staged.map fun st => frameChunk rt st.frame) =
      (staged.zip (placesFrom rt d staged)).map fun p => (p.1.frame, p.2) := by
  induction staged generalizing d with
  | nil => rfl
  | cons st rest ih =>
      have hrest := @ih (d.put (frameChunk rt st.frame))
      exact congrArg ((st.frame, d.nextPos (rt.frameLength st.frame)) :: ·) hrest

theorem length_placesFrom {rt : Runtime} (staged : List StagedCommittedEvent) :
    (placesFrom rt d staged).length = staged.length := by
  induction staged generalizing d with
  | nil => rfl
  | cons st rest ih => exact congrArg Nat.succ ih

theorem length_of_placesFrom {rt : Runtime} (staged : List StagedCommittedEvent) :
    ∀ p ∈ staged.zip (placesFrom rt d staged), p.2.length = rt.frameLength p.1.frame := by
  induction staged generalizing d with
  | nil =>
      intro p hp
      cases hp
  | cons st rest ih =>
      intro p hp
      rcases List.mem_cons.mp hp with rfl | hp
      · rfl
      · exact @ih (d.put (frameChunk rt st.frame)) p hp

theorem segmentId_placesFrom {rt : Runtime} (staged : List StagedCommittedEvent) :
    ∀ pos ∈ placesFrom rt d staged, pos.segmentId = d.segmentId := by
  induction staged generalizing d with
  | nil =>
      intro pos hpos
      cases hpos
  | cons st rest ih =>
      intro pos hpos
      rcases List.mem_cons.mp hpos with rfl | hpos
      · rfl
      · exact @ih (d.put (frameChunk rt st.frame)) pos hpos

/-! ### What the writer does -/

/-- A frame the scan does not refuse for its size. -/
def Readable (rt : Runtime) (f : Frame) : Prop :=
  rt.frameLength f ≤ frameHeaderBytes + maxFramePayload

instance (rt : Runtime) (f : Frame) : Decidable (Readable rt f) :=
  inferInstanceAs (Decidable (_ ≤ _))

theorem Readable.fits {rt : Runtime} {f : Frame} (h : Readable rt f) : rt.frameLength f ≤ u32Max :=
  Nat.le_trans h (by decide)

/-- The frame of the append can be scanned. -/
def AppendReadable (rt : Runtime) (req : AppendRequest) (fenced : Bool) (s : WriterCore) : Prop :=
  ∀ st, StagedAppend rt req fenced s st → Readable rt st.frame

/-- The frames of the batch can be scanned, and no event has the zero id for its cause. -/
structure BatchReadable (rt : Runtime) (nowUs : Int) (items : List BatchAppendItem) (fenced : Bool)
    (s : WriterCore) (nowMs : Nat) : Prop where
  begins : Readable rt (batchMarkerFrame s.index.globalSequence .systemBatchBegin items.length nowUs
    nowMs)
  commit : Readable rt (batchMarkerFrame s.index.globalSequence .systemBatchCommit 0 nowUs nowMs)
  events : ∀ st ∈ stagedItems rt (batchContext nowUs nowMs fenced s) s.index [] items,
    st.frame.payload.length ≤ u32Max ∧ Readable rt st.frame ∧ st.frame.causationId ≠ some 0

/-- The files of a store all of whose frames are recorded. The active file has no footer, or
the one its rows make. -/
structure RecordedFiles (d : DiskView) : Prop where
  active : Recorded d
  footer : ∀ rows, d.active.footer = some rows → rows = d.collector
  sealed : ∀ seg ∈ d.sealed, SidxAgrees seg

section Writer

variable {cfg : StoreConfig} {rt : Runtime} {s s' : WriterCore}

theorem RecordedFiles.append {req : AppendRequest} {fenced : Bool} (h : RecordedFiles s.disk)
    (hopen : s.disk.active.footer = none) (hreadable : AppendReadable rt req fenced s)
    (heffect : RecordedAppend cfg rt req fenced s s') : RecordedFiles s'.disk := by
  cases heffect with
  | refused disk inserted latest =>
      rw [disk]
      exact h
  | committed st pos staged disk inserted latest =>
      obtain ⟨d₁, hrotated, hpos, hdisk⟩ := disk
      obtain ⟨hrecorded, hfooter, hsealed⟩ := h.active.rotated hopen h.sealed hrotated
      have hkind := stageAppend_kind staged
      have hcause : st.causationId.filter (· ≠ 0) = st.frame.causationId :=
        stageAppend_cause staged
      have hw : Segment.locate d₁.active.id d₁.active.framesEnd [frameChunk rt st.frame] =
          [(st.frame, pos)] := by
        rw [hpos, DiskView.nextPos, ← hrecorded.id, hrecorded.offset]
        rfl
      have hstarts : startsBatch [(st.frame, pos)] = false := by
        simp [startsBatch, (kinds_of_event hkind).1]
      have hsegment : pos.segmentId = d₁.active.id := by
        rw [hpos, hrecorded.id]
        rfl
      have hrows := @bare_footerEntries d₁.active.id [(st, pos)] (by simpa using hsegment)
        (by simpa using hkind) (by simpa using hcause)
      have hextended : Recorded ((d₁.putAll [frameChunk rt st.frame]).collect [st.sidxEntry pos]) :=
        hrecorded.extend (Nat.le_refl _) hw (by simp [frameChunk, Chunk.isWhole])
          (.single _ hkind) (by simp) (by simp [hstarts])
          (by
            intro p hp
            rw [List.mem_singleton.mp hp, hpos]
            exact hreadable st staged)
          (by
            rw [committedEvents, if_neg (by simp [hstarts])]
            exact hrows)
          (by
            intro row hrow
            rw [List.mem_singleton.mp hrow]
            refine ⟨(st.frame, pos), List.mem_singleton_self _, ?_⟩
            rw [← hsegment]
            rfl)
      rw [hdisk]
      refine ⟨hextended, ?_, hsealed⟩
      intro rows hrows
      change d₁.active.footer = some rows at hrows
      rw [hfooter] at hrows
      cases hrows

theorem endsCommitted_envelope {marker commit : Frame × DiskPos} {events : List (Frame × DiskPos)}
    (hcommit : commit.1.kind = .systemBatchCommit) :
    endsCommitted (marker :: (events ++ [commit])) = true := by
  unfold endsCommitted
  rw [List.getLast?_cons, List.getLast?_append]
  simp [hcommit]

theorem committedEvents_envelope {marker commit : Frame × DiskPos} {events : List (Frame × DiskPos)}
    (hbegin : marker.1.kind = .systemBatchBegin) (hcommit : commit.1.kind = .systemBatchCommit) :
    committedEvents (marker :: (events ++ [commit])) = events := by
  have hstarts : startsBatch (marker :: (events ++ [commit])) = true := by
    simp [startsBatch, hbegin]
  simp [committedEvents, hstarts, endsCommitted_envelope hcommit]

theorem filter_ne_zero {cause : Option Nat} (h : cause ≠ some 0) :
    cause.filter (· ≠ 0) = cause := by
  cases cause with
  | none => rfl
  | some id =>
      have hid : id ≠ 0 := fun hzero => h (by rw [hzero])
      simp [Option.filter, hid]

/-- The envelope of a batch in the file: BEGIN, the events where they were placed, COMMIT. -/
theorem locate_envelope (h : Recorded d) {firstSeq nowMs : Nat} {nowUs : Int}
    {staged : List StagedCommittedEvent} {places : List DiskPos}
    (hplaces : places = placesFrom rt (d.put (frameChunk rt
      (batchMarkerFrame firstSeq .systemBatchBegin staged.length nowUs nowMs))) staged) :
    ∃ last, Segment.locate d.active.id d.active.framesEnd
        (envelope rt firstSeq nowUs nowMs staged) =
      (batchMarkerFrame firstSeq .systemBatchBegin staged.length nowUs nowMs,
        d.nextPos (rt.frameLength
          (batchMarkerFrame firstSeq .systemBatchBegin staged.length nowUs nowMs))) ::
        ((staged.zip places).map (fun p => (p.1.frame, p.2)) ++
          [(batchMarkerFrame firstSeq .systemBatchCommit 0 nowUs nowMs, last)]) ∧
      last.length = rt.frameLength (batchMarkerFrame firstSeq .systemBatchCommit 0 nowUs nowMs) := by
  have hevents := @locate_staged rt (d.put (frameChunk rt
    (batchMarkerFrame firstSeq .systemBatchBegin staged.length nowUs nowMs))) staged
  have hstart : (d.put (frameChunk rt (batchMarkerFrame firstSeq .systemBatchBegin staged.length
      nowUs nowMs))).active.writtenBytes = d.active.framesEnd + rt.frameLength
        (batchMarkerFrame firstSeq .systemBatchBegin staged.length nowUs nowMs) := by
    rw [← h.offset]
    rfl
  have hsegment : (d.put (frameChunk rt (batchMarkerFrame firstSeq .systemBatchBegin staged.length
      nowUs nowMs))).segmentId = d.active.id := h.id.symm
  rw [hstart, hsegment, ← hplaces] at hevents
  unfold envelope
  rw [locate_cons, locate_append]
  change ∃ last, [(_, _)] ++ (Segment.locate d.active.id (d.active.framesEnd + rt.frameLength
    (batchMarkerFrame firstSeq .systemBatchBegin staged.length nowUs nowMs)) _ ++ [(_, _)]) = _ ∧ _
  rw [hevents]
  rw [DiskView.nextPos, h.offset, h.id]
  exact ⟨_, rfl, rfl⟩

theorem RecordedFiles.appendBatch {nowUs : Int} {items : List BatchAppendItem} {fenced : Bool}
    (h : RecordedFiles s.disk) (hopen : s.disk.active.footer = none)
    (hcount : items.length ≤ maxBatchRecoveryItems)
    (hreadable : ∀ nowMs, wallMsFromTimestampUs nowUs = .ok nowMs →
      BatchReadable rt nowUs items fenced s nowMs)
    (heffect : RecordedBatch cfg rt nowUs items fenced s s') : RecordedFiles s'.disk := by
  cases heffect with
  | refused disk inserted latest =>
      rw [disk]
      exact h
  | committed nowMs receipts d₂ wall nonempty valid accepted written disk inserted latest =>
      obtain ⟨hbegin, hcommit, hevents⟩ := hreadable nowMs wall
      obtain ⟨d₁, nowMs', hrotated, hwall, hplaces, hwritten⟩ := written
      obtain rfl : nowMs = nowMs' := Except.ok.inj (wall.symm.trans hwall)
      obtain ⟨hrecorded, hfooter, hsealed⟩ := h.active.rotated hopen h.sealed hrotated
      have hlength := stagedItems_length rt (batchContext nowUs nowMs fenced s) s.index [] items
      have hkinds := @stagedItems_kind rt items (batchContext nowUs nowMs fenced s) s.index []
      have hcauses := @stagedItems_cause rt items (batchContext nowUs nowMs fenced s) s.index []
      rw [← hlength] at hbegin hcount
      generalize hstaged : stagedItems rt (batchContext nowUs nowMs fenced s) s.index [] items =
        staged at hevents hplaces hwritten hlength hkinds hcauses hbegin hcount disk
      obtain ⟨last, hw, hlast⟩ := locate_envelope hrecorded hplaces
      have hzip : (staged.zip (receipts.map (·.diskPos))).length = staged.length := by
        rw [hplaces, List.length_zip, length_placesFrom, Nat.min_self]
      have hmem : ∀ p ∈ staged.zip (receipts.map (·.diskPos)), p.1 ∈ staged ∧
          p.2.segmentId = d₁.active.id := by
        intro p hp
        obtain ⟨hst, hpos⟩ := List.of_mem_zip hp
        rw [hplaces] at hpos
        exact ⟨hst, (segmentId_placesFrom _ _ hpos).trans hrecorded.id.symm⟩
      have hrows := @bare_footerEntries d₁.active.id (staged.zip (receipts.map (·.diskPos)))
        (fun p hp => (hmem p hp).2) (fun p hp => hkinds p.1 (hmem p hp).1) (fun p hp => by
          have hzero := (hevents p.1 (hmem p hp).1).2.2
          rw [hcauses p.1 (hmem p hp).1]
          exact filter_ne_zero hzero)
      have hextended : Recorded ((d₁.putAll (envelope rt s.index.globalSequence nowUs nowMs
          staged)).collect (batchRows staged receipts)) := by
        apply hrecorded.extend hcount hw
        · intro c hc
          rcases List.mem_cons.mp hc with rfl | hc
          · rfl
          · rcases List.mem_append.mp hc with hc | hc
            · obtain ⟨st, -, rfl⟩ := List.mem_map.mp hc
              rfl
            · rw [List.mem_singleton.mp hc]
              rfl
        · refine .committed _ _ _ rfl ?_ (Nat.le_refl _) ?_ ?_ rfl
          · change 0 < staged.length
            rw [hlength]
            exact List.length_pos_of_ne_nil nonempty
          · intro p hp
            obtain ⟨q, hq, rfl⟩ := List.mem_map.mp hp
            exact hkinds q.1 (hmem q hq).1
          · rw [List.length_map, hzip]
            rfl
        · exact List.cons_ne_nil _ _
        · rw [endsCommitted_envelope rfl]
          simp
        · intro p hp
          rcases List.mem_cons.mp hp with rfl | hp
          · exact hbegin
          · rcases List.mem_append.mp hp with hp | hp
            · obtain ⟨q, hq, rfl⟩ := List.mem_map.mp hp
              have hread := (hevents q.1 (hmem q hq).1).2.1
              rw [hplaces] at hq
              change q.2.length ≤ _
              rw [length_of_placesFrom staged q hq]
              exact hread
            · rw [List.mem_singleton.mp hp]
              change last.length ≤ _
              rw [hlast]
              exact hcommit
        · rw [committedEvents_envelope rfl rfl]
          exact hrows
        · intro row hrow
          obtain ⟨p, hp, rfl⟩ := List.mem_map.mp hrow
          refine ⟨(p.1.frame, p.2), ?_, ?_⟩
          · exact List.mem_cons_of_mem _ (List.mem_append_left _
              (List.mem_map.mpr ⟨p, hp, rfl⟩))
          · rw [← (hmem p hp).2]
            rfl
      rw [disk, hwritten]
      refine ⟨hextended.sync, ?_, ?_⟩
      · intro rows hrows
        change (d₁.putAll _).active.footer = some rows at hrows
        rw [(id_putAll d₁ _).2.2.2.1, hfooter] at hrows
        cases hrows
      · change ∀ seg ∈ (d₁.putAll _).sealed, SidxAgrees seg
        rw [(id_putAll d₁ _).2.2.2.2]
        exact hsealed

theorem RecordedFiles.sync (h : RecordedFiles d) : RecordedFiles d.sync :=
  ⟨h.active.sync, h.footer, h.sealed⟩

theorem RecordedFiles.writeFooter (h : RecordedFiles d) :
    RecordedFiles { d with active := d.active.writeSidxFooter d.collector } where
  active := ⟨h.active.id, h.active.whole, h.active.fits, h.active.offset, h.active.scan,
    h.active.placed⟩
  footer rows hrows := by
    cases hrows
    rfl
  sealed := h.sealed

/-- Every file of a recorded store agrees with its footer. -/
theorem RecordedFiles.agrees (h : RecordedFiles d) :
    ∀ seg ∈ d.segments, SidxAgrees seg := by
  intro seg hseg
  rcases List.mem_append.mp hseg with hseg | hseg
  · exact h.sealed seg hseg
  · rw [List.mem_singleton.mp hseg]
    exact h.active.agrees rfl rfl rfl h.footer

end Writer

/-! ### Whole lives -/

/-- An append finds its file without a footer, meets no failure once a frame of its own may
be in the file, and writes frames the scan can read. -/
def recordingGuard (rt : Runtime) : CommandGuard := fun s flt cmd =>
  s.active.footer = none ∧
    match cmd with
    | .append req _ => flt.Recording 0 ∧ AppendReadable rt req false s
    | .fenceAppend _ req _ => flt.Recording 0 ∧ AppendReadable rt req true s
    | .appendBatch nowUs items _ =>
        flt.Recording items.length ∧ items.length ≤ maxBatchRecoveryItems ∧
          ∀ nowMs, wallMsFromTimestampUs nowUs = .ok nowMs →
            BatchReadable rt nowUs items false s nowMs
    | .fenceAppendBatch _ nowUs items _ =>
        flt.Recording items.length ∧ items.length ≤ maxBatchRecoveryItems ∧
          ∀ nowMs, wallMsFromTimestampUs nowUs = .ok nowMs →
            BatchReadable rt nowUs items true s nowMs
    | _ => True

/-- The guard on every append of a life, the open event of each open included. -/
def recordingGuards (cfg : LifecycleConfig) (rt : Runtime) : LifeGuards where
  command := recordingGuard rt
  compact _ _ := True
  close _ _ := True
  crash _ _ _ := True
  reopen segments ranges side fences inputs :=
    ∀ index, openIndex rt cfg.retention cfg.overflow side.snapshot side.idemp ranges segments =
      .ok index →
        (recordingGuard rt).AllowsOpen (spawnStore cfg index segments ranges fences) inputs

section Life

variable {cfg : LifecycleConfig} {rt : Runtime}

theorem BatchReadable.fits {nowUs : Int} {items : List BatchAppendItem} {fenced : Bool}
    {s : WriterCore} (h : ∀ nowMs, wallMsFromTimestampUs nowUs = .ok nowMs →
      BatchReadable rt nowUs items fenced s nowMs) : BatchFits rt nowUs items fenced s := by
  intro nowMs hwall
  have hreadable := h nowMs hwall
  refine ⟨?_, hreadable.commit.fits⟩
  intro st hst
  obtain ⟨hpayload, hframe, -⟩ := hreadable.events st hst
  exact ⟨hpayload, hframe.fits⟩

/-- What a sync, the closing footer and every recorded append keep of the files, every guarded
command keeps. -/
theorem recordingRules {P : DiskView → Prop} (cfg : StoreConfig) (rt : Runtime)
    (hsync : ∀ d, P d → P d.sync)
    (hfooter : ∀ d, P d → P { d with active := d.active.writeSidxFooter d.collector })
    (happend : ∀ {req fenced} {s s' : WriterCore}, P s.disk → s.active.footer = none →
      AppendReadable rt req fenced s → RecordedAppend cfg rt req fenced s s' → P s'.disk)
    (hbatch : ∀ {nowUs items fenced} {s s' : WriterCore}, P s.disk → s.active.footer = none →
      items.length ≤ maxBatchRecoveryItems →
      (∀ nowMs, wallMsFromTimestampUs nowUs = .ok nowMs →
        BatchReadable rt nowUs items fenced s nowMs) →
      RecordedBatch cfg rt nowUs items fenced s s' → P s'.disk) :
    CommandRules cfg rt (fun s => P s.disk) (recordingGuard rt) where
  service := serviceRules_disk hsync hfooter
  pend _ h := h
  append flt req respond h hguard := by
    obtain ⟨hopen, hflt, hreadable⟩ := hguard
    exact happend h hopen hreadable (handleAppend_recorded hflt fun st hst =>
      (hreadable st hst).fits)
  fenceAppend flt token req respond h hguard _ := by
    obtain ⟨hopen, hflt, hreadable⟩ := hguard
    exact happend h hopen hreadable (handleAppend_recorded hflt fun st hst =>
      (hreadable st hst).fits)
  appendBatch flt nowUs items respond h hguard := by
    obtain ⟨hopen, hflt, hcount, hreadable⟩ := hguard
    exact hbatch h hopen hcount hreadable
      (handleAppendBatch_recorded hflt (BatchReadable.fits hreadable))
  fenceAppendBatch flt token nowUs items respond h hguard _ := by
    obtain ⟨hopen, hflt, hcount, hreadable⟩ := hguard
    exact hbatch h hopen hcount hreadable
      (handleAppendBatch_recorded hflt (BatchReadable.fits hreadable))

theorem recordedCommands (cfg : StoreConfig) (rt : Runtime) :
    CommandRules cfg rt (fun s => RecordedFiles s.disk) (recordingGuard rt) :=
  recordingRules cfg rt (fun _ h => h.sync) (fun _ h => h.writeFooter)
    (fun h => h.append) fun h => h.appendBatch

/-- A crash leaves the footer only on a file it left whole. -/
theorem RecordedFiles.cut (h : RecordedFiles d) (kept torn : Nat) :
    SidxAgrees (cutSegment kept torn d.active) := by
  by_cases hkept : d.active.chunks.length ≤ kept
  · have htake : d.active.chunks.take (max d.active.synced kept) = d.active.chunks :=
      List.take_of_length_le (Nat.le_trans hkept (Nat.le_max_right _ _))
    have hall : d.active.chunks.length ≤ max d.active.synced kept :=
      Nat.le_trans hkept (Nat.le_max_right _ _)
    apply h.active.agrees
    · rfl
    · rfl
    · simp [cutSegment, htake, hall]
    · intro rows hrows
      simp only [cutSegment, hkept, if_true] at hrows
      exact h.footer rows hrows
  · intro rows hrows
    simp [cutSegment, hkept] at hrows

theorem recordedLife (cfg : LifecycleConfig) (rt : Runtime) :
    LifeRules cfg rt (fun core _ => RecordedFiles core.disk)
      (fun segments _ _ _ => ∀ seg ∈ segments, SidxAgrees seg) (recordingGuards cfg rt) where
  writer _ := recordedCommands cfg.store rt
  watermark _ h := h
  beginFence h := h
  swap {core side strategy merged fresh} h _ hresult := by
    refine ⟨⟨h.active.id, h.active.whole, h.active.fits, h.active.offset, h.active.scan,
      h.active.placed⟩, h.footer, ?_⟩
    intro seg hseg rows hrows
    obtain ⟨chunks, -, -, -, hmerged, -, -⟩ := compactionResult_restored hresult
    rw [List.mem_singleton.mp hseg, hmerged] at hrows
    cases hrows
  sweep h := h
  flush h := h
  snapshot h := h
  closed _ _ _ h := h.agrees
  crash h _ := by
    intro seg hseg
    rcases List.mem_append.mp hseg with hseg | hseg
    · exact h.sealed seg hseg
    · rw [List.mem_singleton.mp hseg]
      exact h.cut _ _
  spawn {segments ranges side fences index inputs} h hguard hindex := by
    refine ⟨⟨Recorded.create cfg.store _ _, ?_, h⟩, hguard index hindex⟩
    intro rows hrows
    cases hrows
  abandon _ h := h.agrees

end Life

/-- The files of a store. -/
def StoreState.files : StoreState → List Segment
  | .opened core _ => core.segments
  | .closed segments .. => segments

/-- In every life whose appends are recorded, each file that has a footer gives the same
entries through it as frame by frame. -/
theorem sidx_agrees_of_recorded_life (cfg : LifecycleConfig) (rt : Runtime)
    (steps : List LifecycleStep)
    (h : Guarded (lifecycleStep cfg rt) (recordingGuards cfg rt).Allows .blank steps) :
    ∀ seg ∈ (run (lifecycleStep cfg rt) .blank steps).files, SidxAgrees seg := by
  have hblank : StoreHolds (fun core _ => RecordedFiles core.disk)
      (fun segments _ _ _ => ∀ seg ∈ segments, SidxAgrees seg) .blank := by
    intro seg hseg
    cases hseg
  have hfinal := run_invariant (recordedLife cfg rt).lifecycleStep steps .blank hblank h
  generalize run (lifecycleStep cfg rt) .blank steps = st at hfinal
  cases st with
  | opened core side => exact RecordedFiles.agrees hfinal
  | closed segments ranges side fences => exact hfinal

/-! ### Deciding the guard -/

instance (rt : Runtime) (req : AppendRequest) (fenced : Bool) (s : WriterCore) :
    Decidable (AppendReadable rt req fenced s) :=
  inferInstanceAs (Decidable (∀ st, stageAppend rt req (req.latest s.index) s.segmentId
    s.index.globalSequence (fenceIdentity s fenced) = .ok st → Readable rt st.frame))

instance (rt : Runtime) (nowUs : Int) (items : List BatchAppendItem) (fenced : Bool)
    (s : WriterCore) : DecidablePred (BatchReadable rt nowUs items fenced s) := fun nowMs =>
  decidable_of_iff (Readable rt (batchMarkerFrame s.index.globalSequence .systemBatchBegin
      items.length nowUs nowMs) ∧
    Readable rt (batchMarkerFrame s.index.globalSequence .systemBatchCommit 0 nowUs nowMs) ∧
    ∀ st ∈ stagedItems rt (batchContext nowUs nowMs fenced s) s.index [] items,
      st.frame.payload.length ≤ u32Max ∧ Readable rt st.frame ∧ st.frame.causationId ≠ some 0)
    ⟨fun ⟨hbegin, hcommit, hevents⟩ => ⟨hbegin, hcommit, hevents⟩,
      fun h => ⟨h.begins, h.commit, h.events⟩⟩

instance (rt : Runtime) (s : WriterCore) (flt : Faults) (cmd : WriterCommand) :
    Decidable (recordingGuard rt s flt cmd) :=
  match cmd with
  | .append .. | .fenceAppend .. => inferInstanceAs (Decidable (_ ∧ _ ∧ _))
  | .appendBatch .. | .fenceAppendBatch .. => inferInstanceAs (Decidable (_ ∧ _ ∧ _ ∧ _))
  | .beginVisibilityFence .. | .commitVisibilityFence .. | .cancelVisibilityFence .. | .sync _
  | .shutdown _ => inferInstanceAs (Decidable (_ ∧ True))

instance (cfg : LifecycleConfig) (rt : Runtime) (st : StoreState) (step : LifecycleStep) :
    Decidable ((recordingGuards cfg rt).Allows st step) :=
  match st, step with
  | .opened core _, .writer (.command _ q) =>
      inferInstanceAs (Decidable (q.command.appends = true →
        recordingGuard rt core q.faults q.command))
  | .opened .., .writer (.periodicSync _) | .opened .., .writer (.completeShutdown ..)
  | .opened .., .compact .. | .opened .., .close _ | .opened .., .crash ..
  | .opened .., .beginFence | .opened .., .reopen _ => inferInstanceAs (Decidable True)
  | .closed segments ranges side fences, .reopen inputs =>
      inferInstanceAs (Decidable (∀ index, openIndex rt cfg.retention cfg.overflow side.snapshot
        side.idemp ranges segments = .ok index → ∀ lastClose,
          lastCloseHlc (spawnStore cfg index segments ranges fences).index = .ok lastClose →
            recordingGuard rt (spawnStore cfg index segments ranges fences) inputs.faults _))
  | .closed .., .beginFence | .closed .., .writer _ | .closed .., .compact ..
  | .closed .., .close _ | .closed .., .crash .. => inferInstanceAs (Decidable True)

/-- A batch whose sync fails leaves its envelope behind, COMMIT included; the last append seals
the file. -/
def orphanRun : List LifecycleStep :=
  [.reopen ⟨1, [], 0, .none⟩,
    .writer (.command .main ⟨.appendBatch 0 [plainItem "a" 10 4] 0,
      { Faults.none with sync := true }⟩),
    .writer (.command .main ⟨.append (plainRequest "a" 11 900) 1, .none⟩),
    .writer (.command .main ⟨.append (plainRequest "a" 12 4) 2, .none⟩)]

/-- The footer of the sealed file does not know the frame the scan finds. -/
theorem orphan_frame_not_in_footer :
    ¬∀ seg ∈ (run (lifecycleStep .small .unsigned) .blank orphanRun).files, SidxAgrees seg := by
  intro h
  have hagree : ∀ seg ∈ (run (lifecycleStep .small .unsigned) .blank orphanRun).files,
      ∀ rows ∈ seg.footer, ((frameScanSegment .failClosed seg .initial).toOption.map fun r =>
        r.2.map (·.bare)) = some ((footerEntries seg.id rows).map (·.bare)) := by
    intro seg hseg rows hrows
    obtain ⟨st, found, hscan, hbare, -⟩ := h seg hseg rows hrows
    rw [hscan .failClosed, hbare]
    rfl
  revert hagree
  decide +kernel

/-- A batch and an append that fills the file, the append that seals it, a close and an
open. -/
def recordedRun : List LifecycleStep :=
  [.reopen ⟨1, [], 0, .none⟩,
    .writer (.command .main ⟨.appendBatch 0 [plainItem "a" 10 4, plainItem "b" 11 4] 0, .none⟩),
    .writer (.command .main ⟨.append (plainRequest "a" 12 900) 1, .none⟩),
    .writer (.command .main ⟨.append (plainRequest "a" 13 4) 2, .none⟩),
    .close ⟨3, .none, false, false, false⟩, .reopen ⟨2, [], 0, .none⟩]

theorem recordedRun_sidx_agrees :
    Guarded (lifecycleStep .small .unsigned) (recordingGuards .small .unsigned).Allows .blank
      recordedRun ∧
    ∀ seg ∈ (run (lifecycleStep .small .unsigned) .blank recordedRun).files, SidxAgrees seg := by
  have h : Guarded (lifecycleStep .small .unsigned) (recordingGuards .small .unsigned).Allows .blank
      recordedRun := by
    decide +kernel
  exact ⟨h, sidx_agrees_of_recorded_life .small .unsigned recordedRun h⟩

end Batpak.Store
