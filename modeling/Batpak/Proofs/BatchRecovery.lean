/-
Module: Batpak.Proofs.BatchRecovery
Purpose: What a frame scan of all segments recovers from a run of appends, batches that may stop
  anywhere, and crashes with reopens.
Trusted boundary: none
Main exports: SinglesClear, batch_recovery_exact_iff
-/
import Batpak.Proofs.LogGrowth
import Batpak.Util.Run

namespace Batpak.Store

open Batpak.Util

variable {p : Frame × DiskPos} {st : BatchRecoveryState}

/-! ### Runs and what they should leave behind -/

/-- One step of the run: a single append, a batch, or a crash after which the store is
opened again on a new segment, with whatever index it recovered. -/
inductive LogStep where
  | append (req : AppendRequest) (faults : Faults) (whole : faults.NoTear)
  | batch (nowUs : Int) (items : List BatchAppendItem) (faults : Faults) (whole : faults.NoTear)
  | reopen (index : StoreIndex) (inputs : OpenInputs) (whole : inputs.faults.NoTear)

def logStep (cfg : StoreConfig) (rt : Runtime) (s : WriterCore) : LogStep → WriterCore
  | .append req faults _ => finalState (handleAppend cfg rt faults req false s)
  | .batch nowUs items faults _ =>
      finalState (handleAppendBatch cfg rt faults nowUs items false s)
  | .reopen index inputs _ =>
      finalState (completeOpen cfg rt inputs
        (.spawn cfg index s.segments s.hiddenRanges (s.segmentId + 1)))

/-- What each step of a run added to the log. -/
def writtenBy (cfg : StoreConfig) (rt : Runtime) :
    WriterCore → List LogStep → List (List (Frame × DiskPos))
  | _, [] => []
  | s, i :: is =>
      (logStep cfg rt s i).log.drop s.log.length :: writtenBy cfg rt (logStep cfg rt s i) is

/-- The step wrote a BEGIN marker first. -/
def startsBatch (w : List (Frame × DiskPos)) : Bool :=
  w.head?.any fun p => p.1.kind = .systemBatchBegin

/-- The step wrote a COMMIT marker last. -/
def endsCommitted (w : List (Frame × DiskPos)) : Bool :=
  w.getLast?.any fun p => p.1.kind = .systemBatchCommit

/-- The events a step committed: its single event, the items of a batch whose COMMIT marker
it wrote, nothing of a batch that stopped earlier. -/
def committedEvents (w : List (Frame × DiskPos)) : List (Frame × DiskPos) :=
  if startsBatch w then
    if endsCommitted w then w.tail.dropLast else []
  else w

/-- No single event is written while the last batch is unfinished. `unfinished` says that
the batch before the first of the steps stopped without its COMMIT marker. -/
def SinglesClear : Bool → List (List (Frame × DiskPos)) → Prop
  | _, [] => True
  | unfinished, w :: ws =>
      if w.isEmpty then SinglesClear unfinished ws
      else (unfinished = true → startsBatch w = true) ∧
        SinglesClear (startsBatch w && !endsCommitted w) ws

/-- The entries a frame scan of all segments recovers, if it gets through. -/
def recovered (segments : List Segment) : Option (List ScannedIndexEntry) :=
  match frameScanSegments segments with
  | .ok (_, entries) => some entries
  | .error _ => none

/-! ### The scan reads the log -/

/-- Scanning located frames. -/
def scanLog : List (Frame × DiskPos) → BatchRecoveryState →
    Except StoreError (BatchRecoveryState × List ScannedIndexEntry) :=
  scan fun p => scanFrame p.1 p.2

theorem scanLog_cons_ok {w : List (Frame × DiskPos)} {st' : BatchRecoveryState}
    {found : List ScannedIndexEntry} (h : scanFrame p.1 p.2 st = .ok (st', found)) :
    scanLog (p :: w) st = yieldFirst found (scanLog w st') := by
  unfold scanLog
  rw [scan, h]

def FitsFrame (p : Frame × DiskPos) : Prop :=
  p.2.length ≤ frameHeaderBytes + maxFramePayload

theorem scanChunks_whole (policy : FrameScanTailPolicy) (toEof : Bool) (id : Nat)
    (chunks : List Chunk) :
    ∀ (offset : Nat) (st : BatchRecoveryState), (∀ c ∈ chunks, c.isWhole = true) →
      (∀ p ∈ Segment.locate id offset chunks, FitsFrame p) →
      scanChunks policy toEof id offset chunks st = scanLog (Segment.locate id offset chunks) st := by
  induction chunks with
  | nil => exact fun offset st _ _ => rfl
  | cons c rest ih =>
      intro offset st hwhole hfits
      cases c with
      | torn length => exact absurd (hwhole _ List.mem_cons_self) (by simp [Chunk.isWhole])
      | frame f length =>
          have hfit : length ≤ frameHeaderBytes + maxFramePayload :=
            hfits (f, ⟨id, offset, length⟩) List.mem_cons_self
          have hrest := fun st' => ih (offset + length) st'
            (fun c hc => hwhole c (List.mem_cons_of_mem _ hc))
            (fun p hp => hfits p (List.mem_cons_of_mem _ hp))
          rw [scanChunks, if_neg (by omega)]
          unfold scanLog at hrest ⊢
          rw [Segment.locate, scan]
          cases hframe : scanFrame f ⟨id, offset, length⟩ st with
          | error e => rfl
          | ok p =>
              simp only
              rw [hrest]

/-- Frame-scanning untorn segments reads their concatenated frames, wherever the segment
boundaries lie and whichever tail policy applies. -/
theorem frameScanSegments_whole {s : WriterCore} (hwhole : s.Whole)
    (hfits : ∀ p ∈ s.log, FitsFrame p) :
    frameScanSegments s.segments = scanLog s.log .initial := by
  unfold frameScanSegments scanSegmentsFrom scanLog WriterCore.log
  apply scan_flatMap
  intro seg hseg st
  apply scanChunks_whole
  · exact hwhole seg hseg
  · intro p hp
    exact hfits p (List.mem_flatMap.mpr ⟨seg, hseg, hp⟩)

/-! ### One step's frames -/

/-- Between steps the scanner is either outside a batch or stuck inside an unfinished one. -/
def Between (unfinished : Bool) (st : BatchRecoveryState) : Prop :=
  st.inBatch = unfinished ∧ (unfinished = false → st.staged = [])

theorem kinds_of_event {k : EventKind} (h : k.isBatchMarker = false) :
    k ≠ .systemBatchBegin ∧ k ≠ .systemBatchCommit := by
  simp only [EventKind.isBatchMarker, Bool.or_eq_false_iff, decide_eq_false_iff_not] at h
  exact h

theorem scanFrame_single (hevent : p.1.kind.isBatchMarker = false) (hst : st.inBatch = false) :
    scanFrame p.1 p.2 st = .ok (st, [.ofFrame p.1 p.2]) := by
  obtain ⟨hbegin, hcommit⟩ := kinds_of_event hevent
  simp [scanFrame, hbegin, hcommit, hst]

/-- Inside an unfinished batch an event is never handed on. -/
theorem scanFrame_swallows (hevent : p.1.kind.isBatchMarker = false) (hst : st.inBatch = true) :
    ∃ st' unfinished, scanFrame p.1 p.2 st = .ok (st', []) ∧ Between unfinished st' := by
  obtain ⟨hbegin, hcommit⟩ := kinds_of_event hevent
  by_cases hzero : st.remaining = 0
  · refine ⟨st.discardIncomplete, false, ?_, rfl, fun _ => rfl⟩
    simp [scanFrame, hbegin, hcommit, hst, BatchRecoveryState.stageEntry, hzero]
  · refine ⟨{ st with
      staged := st.staged ++ [.ofFrame p.1 p.2], remaining := st.remaining - 1 }, true, ?_, hst,
      fun h => (by cases h)⟩
    simp [scanFrame, hbegin, hcommit, hst, BatchRecoveryState.stageEntry, hzero]

theorem scanFrame_begin {marker : Frame × DiskPos} (hkind : marker.1.kind = .systemBatchBegin)
    (hpos : 0 < marker.1.payloadSize) (hmax : marker.1.payloadSize ≤ maxBatchRecoveryItems)
    {unfinished : Bool} (hst : Between unfinished st) :
    scanFrame marker.1 marker.2 st =
      .ok (⟨[], marker.1.payloadSize, marker.1.payloadSize, true⟩, []) := by
  have hcount : checkedBatchCount marker.2.segmentId marker.2.offset marker.1.payloadSize =
      .ok marker.1.payloadSize := by
    unfold checkedBatchCount
    rw [if_neg (by omega)]
  have hstaged : (if st.inBatch = true then [] else st.staged) = [] := by
    cases hin : st.inBatch with
    | true => rfl
    | false => exact hst.2 (hst.1.symm.trans hin)
  simp only [scanFrame, hkind, if_true, hcount, hstaged]

/-- Items of an open batch are staged as long as the declared count lasts. -/
theorem scanLog_items (items : List (Frame × DiskPos))
    (hevents : ∀ p ∈ items, p.1.kind.isBatchMarker = false) :
    ∀ (staged : List ScannedIndexEntry) (remaining count : Nat), items.length ≤ remaining →
      scanLog items ⟨staged, remaining, count, true⟩ =
        .ok (⟨staged ++ items.map fun p => .ofFrame p.1 p.2, remaining - items.length, count,
          true⟩, []) := by
  induction items with
  | nil =>
      intro staged remaining count _
      simp [scanLog]
  | cons p rest ih =>
      intro staged remaining count hle
      obtain ⟨hbegin, hcommit⟩ := kinds_of_event (hevents p List.mem_cons_self)
      rw [List.length_cons] at hle
      have hpos : remaining ≠ 0 := by omega
      have hp : scanFrame p.1 p.2 ⟨staged, remaining, count, true⟩ =
          .ok (⟨staged ++ [.ofFrame p.1 p.2], remaining - 1, count, true⟩, []) := by
        simp [scanFrame, hbegin, hcommit, BatchRecoveryState.stageEntry, hpos]
      have hrest := ih (fun q hq => hevents q (List.mem_cons_of_mem _ hq))
        (staged ++ [.ofFrame p.1 p.2]) (remaining - 1) count (by omega)
      rw [scanLog_cons_ok hp, hrest]
      simp only [yieldFirst_nil, List.append_assoc, List.singleton_append, List.map_cons,
        List.length_cons]
      have hsub : remaining - 1 - rest.length = remaining - (rest.length + 1) := by omega
      rw [hsub]

theorem scanFrame_commit {commit : Frame × DiskPos}
    (hkind : commit.1.kind = .systemBatchCommit) (staged : List ScannedIndexEntry)
    (count : Nat) :
    scanFrame commit.1 commit.2 ⟨staged, 0, count, true⟩ = .ok (⟨[], 0, count, false⟩, staged) := by
  have hne : (EventKind.systemBatchCommit = EventKind.systemBatchBegin) = False := by
    simp [EventKind.systemBatchCommit, EventKind.systemBatchBegin]
  simp only [scanFrame, hkind, hne, if_false, if_true]

/-- Scanned form of log positions. -/
def scannedOf (w : List (Frame × DiskPos)) : List ScannedIndexEntry :=
  w.map fun p => .ofFrame p.1 p.2

/-- A step's frames scanned from between two steps: what is handed on, and whether the
scanner is left inside an unfinished batch. A single event is lost exactly when the scanner
was inside one. -/
theorem scanLog_step {limit : Nat} (hlimit : limit ≤ maxBatchRecoveryItems)
    {w : List (Frame × DiskPos)} (hw : StepLog limit w) {unfinished : Bool}
    (hst : Between unfinished st) :
    ∃ st' unfinished' out, scanLog w st = .ok (st', out) ∧ Between unfinished' st' ∧
      (w = [] ∧ out = [] ∧ unfinished' = unfinished ∨
        w ≠ [] ∧ (unfinished = true → startsBatch w = true) ∧
          out = scannedOf (committedEvents w) ∧
          unfinished' = (startsBatch w && !endsCommitted w) ∨
        w ≠ [] ∧ unfinished = true ∧ startsBatch w = false ∧ out = [] ∧
          (committedEvents w).length = 1) := by
  cases hw with
  | nothing => exact ⟨st, unfinished, [], rfl, hst, .inl ⟨rfl, rfl, rfl⟩⟩
  | single p hevent =>
      have hstarts : startsBatch [p] = false := by
        simp [startsBatch, (kinds_of_event hevent).1]
      have hevents : committedEvents [p] = [p] := by simp [committedEvents, hstarts]
      cases unfinished with
      | false =>
          refine ⟨st, false, [.ofFrame p.1 p.2], ?_, hst, .inr (.inl ⟨by simp, ?_, ?_, ?_⟩)⟩
          · rw [scanLog_cons_ok (scanFrame_single hevent hst.1)]
            rfl
          · intro h
            cases h
          · rw [hevents]
            rfl
          · rw [hstarts]
            rfl
      | true =>
          obtain ⟨st', unfinished', hscan, hbetween⟩ := scanFrame_swallows hevent hst.1
          refine ⟨st', unfinished', [], ?_, hbetween, .inr (.inr ⟨by simp, rfl, hstarts, rfl, ?_⟩)⟩
          · rw [scanLog_cons_ok hscan]
            rfl
          · rw [hevents]
            rfl
  | stopped marker items hbegin hpos hbounded hevents hfits =>
      have hstarts : startsBatch (marker :: items) = true := by simp [startsBatch, hbegin]
      have hends : endsCommitted (marker :: items) = false := by
        have hlast : ∀ p ∈ marker :: items, p.1.kind ≠ .systemBatchCommit := by
          intro p hp
          rcases List.mem_cons.mp hp with rfl | hp
          · rw [hbegin]
            decide
          · exact (kinds_of_event (hevents p hp)).2
        unfold endsCommitted
        cases hl : (marker :: items).getLast? with
        | none => rfl
        | some p =>
            have hmem := List.mem_of_getLast? hl
            simpa using hlast p hmem
      have hscan := scanFrame_begin hbegin hpos (hbounded.trans hlimit) hst
      have hitems := scanLog_items items hevents [] marker.1.payloadSize marker.1.payloadSize hfits
      refine ⟨⟨[] ++ scannedOf items, marker.1.payloadSize - items.length, marker.1.payloadSize,
        true⟩, true, [], ?_, ⟨rfl, fun h => (by cases h)⟩,
        .inr (.inl ⟨by simp, fun _ => hstarts, ?_, ?_⟩)⟩
      · rw [scanLog_cons_ok hscan, hitems]
        rfl
      · simp [committedEvents, hstarts, hends, scannedOf]
      · rw [hstarts, hends]
        rfl
  | committed marker items commit hbegin hpos hbounded hevents hcomplete hcommit =>
      have hstarts : startsBatch (marker :: (items ++ [commit])) = true := by
        simp [startsBatch, hbegin]
      have hends : endsCommitted (marker :: (items ++ [commit])) = true := by
        unfold endsCommitted
        rw [List.getLast?_cons, List.getLast?_append]
        simp [hcommit]
      have hscan := scanFrame_begin hbegin hpos (hbounded.trans hlimit) hst
      have hitems := scanLog_items items hevents [] marker.1.payloadSize marker.1.payloadSize
        hcomplete.le
      rw [hcomplete, Nat.sub_self, List.nil_append] at hitems
      refine ⟨⟨[], 0, marker.1.payloadSize, false⟩, false, scannedOf items, ?_, ⟨rfl, fun _ => rfl⟩,
        .inr (.inl ⟨by simp, fun _ => hstarts, ?_, ?_⟩)⟩
      · have happend : scanLog (items ++ [commit]) ⟨[], marker.1.payloadSize,
            marker.1.payloadSize, true⟩ = .ok (⟨[], 0, marker.1.payloadSize, false⟩,
              scannedOf items) := by
          rw [scanLog, scan_append_ok hitems, yieldFirst_nil]
          change scanLog [commit] _ = _
          rw [scanLog_cons_ok (scanFrame_commit hcommit _ _)]
          simp [scanLog, scannedOf]
        rw [scanLog_cons_ok hscan, happend]
        rfl
      · simp [committedEvents, hstarts, hends, scannedOf]
      · rw [hstarts, hends]
        rfl

/-! ### A whole run -/

@[simp] theorem committedEvents_nil : committedEvents [] = [] := rfl

theorem scannedOf_append (v w : List (Frame × DiskPos)) :
    scannedOf (v ++ w) = scannedOf v ++ scannedOf w :=
  List.map_append

/-- The scan of a run hands on at most what was committed, and all of it exactly when every
single event is clear of unfinished batches. -/
theorem scanLog_steps {limit : Nat} (hlimit : limit ≤ maxBatchRecoveryItems)
    (ws : List (List (Frame × DiskPos))) (hws : ∀ w ∈ ws, StepLog limit w) :
    ∀ (unfinished : Bool) (st : BatchRecoveryState), Between unfinished st →
      ∃ st' out, scanLog ws.flatten st = .ok (st', out) ∧
        out.length ≤ (ws.flatMap committedEvents).length ∧
        (out = scannedOf (ws.flatMap committedEvents) ↔ SinglesClear unfinished ws) := by
  induction ws with
  | nil =>
      intro unfinished st hst
      exact ⟨st, [], rfl, le_rfl, by simp [SinglesClear, scannedOf]⟩
  | cons w rest ih =>
      intro unfinished st hst
      obtain ⟨st₁, unfinished₁, out₁, hscan, hst₁, hcase⟩ :=
        scanLog_step hlimit (hws w List.mem_cons_self) hst
      obtain ⟨st₂, out₂, hrest, hlength, hiff⟩ :=
        ih (fun v hv => hws v (List.mem_cons_of_mem _ hv)) unfinished₁ st₁ hst₁
      refine ⟨st₂, out₁ ++ out₂, ?_, ?_, ?_⟩
      · rw [List.flatten_cons, scanLog, scan_append_ok hscan]
        change yieldFirst out₁ (scanLog rest.flatten st₁) = _
        rw [hrest, yieldFirst_ok]
      · rw [List.flatMap_cons, List.length_append, List.length_append]
        rcases hcase with ⟨rfl, rfl, -⟩ | ⟨-, -, rfl, -⟩ | ⟨-, -, -, rfl, -⟩
        · simpa using hlength
        · rw [scannedOf, List.length_map]
          omega
        · rw [List.length_nil]
          omega
      · rcases hcase with ⟨rfl, rfl, rfl⟩ | ⟨hne, hclear, rfl, rfl⟩ | ⟨hne, rfl, hsingle, rfl, hone⟩
        · simpa [SinglesClear] using hiff
        · rw [List.flatMap_cons, scannedOf_append, List.append_cancel_left_eq, hiff, SinglesClear,
            if_neg (by simpa using hne)]
          exact ⟨fun h => ⟨hclear, h⟩, fun h => h.2⟩
        · -- the single event is missing, so the lists differ in length
          constructor
          · intro heq
            have hlen := congrArg List.length heq
            rw [List.nil_append, scannedOf, List.length_map, List.flatMap_cons,
              List.length_append, hone] at hlen
            omega
          · intro h
            rw [SinglesClear, if_neg (by simpa using hne)] at h
            rw [hsingle] at h
            exact absurd (h.1 rfl) (by decide)

/-- Every step adds a step log. -/
theorem logStep_stepLog (cfg : StoreConfig) (rt : Runtime) {s : WriterCore} (hwhole : s.Whole)
    (i : LogStep) : LoggedStep cfg.batchMaxSize s (logStep cfg rt s i) := by
  cases i with
  | append req faults hfaults => exact (handleAppend_log cfg rt hfaults req false hwhole).stepLog
  | batch nowUs items faults hfaults =>
      exact handleAppendBatch_log cfg rt hfaults nowUs items false hwhole
  | reopen index inputs hfaults =>
      -- the new segment is empty: the spawned writer starts from the same log
      have hspawn : Logged s [] (WriterCore.spawn cfg index s.segments s.hiddenRanges
          (s.segmentId + 1)) := by
        refine ⟨?_, ?_⟩
        · simp only [WriterCore.log, WriterCore.spawn, WriterCore.segments, List.flatMap_append,
            List.flatMap_cons, List.flatMap_nil, List.append_nil, List.append_assoc]
          rw [show (Segment.create (s.segmentId + 1) cfg.headerBytes).located = [] from rfl,
            List.append_nil]
        · intro seg hseg c hc
          rcases List.mem_append.mp hseg with hsealed | hactive
          · exact hwhole seg hsealed c hc
          · obtain rfl := List.mem_singleton.mp hactive
            cases hc
      obtain ⟨d, hd, hlogged⟩ := (completeOpen_log cfg rt hfaults hspawn.whole).stepLog
      have hlog := hlogged.log
      rw [hspawn.log, List.append_nil] at hlog
      exact ⟨d, hd, hlog, hlogged.whole⟩

/-- The log of a run is what its steps added, each a step log. -/
theorem run_log (cfg : StoreConfig) (rt : Runtime) (steps : List LogStep) :
    ∀ s : WriterCore, s.Whole →
      (run (logStep cfg rt) s steps).Whole ∧
      (run (logStep cfg rt) s steps).log = s.log ++ (writtenBy cfg rt s steps).flatten ∧
      ∀ w ∈ writtenBy cfg rt s steps, StepLog cfg.batchMaxSize w := by
  induction steps with
  | nil =>
      intro s hs
      exact ⟨hs, by simp [writtenBy], fun w hw => by cases hw⟩
  | cons i rest ih =>
      intro s hs
      obtain ⟨d, hd, hlogged⟩ := logStep_stepLog cfg rt hs i
      obtain ⟨hwhole, hlog, hsteps⟩ := ih (logStep cfg rt s i) hlogged.whole
      have hdrop : (logStep cfg rt s i).log.drop s.log.length = d := by
        rw [hlogged.log, List.drop_left]
      refine ⟨hwhole, ?_, ?_⟩
      · rw [run_cons, hlog, writtenBy, hdrop, List.flatten_cons, hlogged.log, List.append_assoc]
      · intro w hw
        rw [writtenBy, hdrop] at hw
        rcases List.mem_cons.mp hw with rfl | hw
        · exact hd
        · exact hsteps w hw

/-- A frame scan of all segments recovers every single event and every item of every
committed batch exactly once and in order, and nothing of an unfinished batch, exactly when
no single event is written while the batch before it is unfinished. -/
theorem batch_recovery_exact_iff (cfg : StoreConfig) (rt : Runtime) (index : StoreIndex)
    (ranges : Option CancelledVisibilityRanges) (segmentId : Nat) (steps : List LogStep)
    (hlimit : cfg.batchMaxSize ≤ maxBatchRecoveryItems)
    (hfits : ∀ p ∈ (run (logStep cfg rt) (.spawn cfg index [] ranges segmentId) steps).log,
      FitsFrame p) :
    recovered (run (logStep cfg rt) (.spawn cfg index [] ranges segmentId) steps).segments =
        some (scannedOf ((writtenBy cfg rt (.spawn cfg index [] ranges segmentId)
          steps).flatMap committedEvents)) ↔
      SinglesClear false (writtenBy cfg rt (.spawn cfg index [] ranges segmentId) steps) := by
  have hempty : (WriterCore.spawn cfg index [] ranges segmentId).Whole := by
    intro seg hseg c hc
    obtain rfl := List.mem_singleton.mp hseg
    cases hc
  obtain ⟨hwhole, hlog, hsteps⟩ := run_log cfg rt steps _ hempty
  obtain ⟨st, out, hscan, -, hiff⟩ := scanLog_steps hlimit _ hsteps false .initial
    ⟨rfl, fun _ => rfl⟩
  have hstart : (WriterCore.spawn cfg index [] ranges segmentId).log = [] := rfl
  rw [hstart, List.nil_append] at hlog
  unfold recovered
  rw [frameScanSegments_whole hwhole hfits, hlog, hscan, ← hiff]
  simp only [Option.some.injEq]

/-- A batch of two whose second item fails to encode, then a single append. -/
def dangledRun : List LogStep :=
  [.batch 0 [plainItem "account:7" 21 8, plainItem "account:7" 22 8]
      { Faults.none with encode := fun i => i = 2 } (fun _ => rfl),
    .append (plainRequest "account:9" 23 8) .none (fun _ => rfl)]

/-- The acknowledged single append disappears behind the unfinished batch. -/
theorem dangling_batch_swallows_append :
    ¬∀ (cfg : StoreConfig) (rt : Runtime) (index : StoreIndex)
      (ranges : Option CancelledVisibilityRanges) (segmentId : Nat) (steps : List LogStep),
      cfg.batchMaxSize ≤ maxBatchRecoveryItems →
      (∀ p ∈ (run (logStep cfg rt) (.spawn cfg index [] ranges segmentId) steps).log,
        FitsFrame p) →
      recovered (run (logStep cfg rt) (.spawn cfg index [] ranges segmentId) steps).segments =
        some (scannedOf ((writtenBy cfg rt (.spawn cfg index [] ranges segmentId)
          steps).flatMap committedEvents)) := by
  intro h
  have hrun := h .small .unsigned (.new .unbounded .warn) none 1 dangledRun (by decide)
    (by unfold FitsFrame; decide +kernel)
  exact absurd hrun (by decide +kernel)

/-- The characterisation on the run with a committed batch between the unfinished one and
the single append. -/
theorem batch_recovery_exact_restarted :
    recovered (run (logStep .small .unsigned)
        (.spawn .small (.new .unbounded .warn) [] none 1)
        (dangledRun.take 1 ++ [.batch 0 [plainItem "account:7" 24 8] .none (fun _ => rfl)] ++
          dangledRun.drop 1)).segments =
        some (scannedOf ((writtenBy .small .unsigned
          (.spawn .small (.new .unbounded .warn) [] none 1)
          (dangledRun.take 1 ++ [.batch 0 [plainItem "account:7" 24 8] .none (fun _ => rfl)] ++
            dangledRun.drop 1)).flatMap committedEvents)) ↔
      SinglesClear false (writtenBy .small .unsigned
        (.spawn .small (.new .unbounded .warn) [] none 1)
        (dangledRun.take 1 ++ [.batch 0 [plainItem "account:7" 24 8] .none (fun _ => rfl)] ++
          dangledRun.drop 1)) :=
  batch_recovery_exact_iff .small .unsigned (.new .unbounded .warn) none 1 _ (by decide)
    (by unfold FitsFrame; decide +kernel)

end Batpak.Store
