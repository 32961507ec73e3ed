/-
Module: Batpak.Proofs.LogGrowth
Purpose: What the writer adds to the log, the frames of all segments in file order.
Trusted boundary: none
Main exports: handleAppend_log, handleAppendBatch_log
-/
import Batpak.Proofs.DiskEffects
import Batpak.Store.Open
import Batpak.Store.Recovery

namespace Batpak.Store

open Batpak.Util

variable {s : WriterCore} {d d' : DiskView} {cfg : StoreConfig} {rt : Runtime} {eventId : Nat}

/-! ### The log -/

/-- Every frame of every segment with its place, oldest first. -/
def WriterCore.log (s : WriterCore) : List (Frame × DiskPos) :=
  s.segments.flatMap Segment.located

/-- No write has been cut short. -/
def Chunk.isWhole : Chunk → Bool
  | .frame .. => true
  | .torn _ => false

def WriterCore.Whole (s : WriterCore) : Prop :=
  ∀ seg ∈ s.segments, ∀ c ∈ seg.chunks, c.isWhole = true

/-- What one step may add to the log. `limit` bounds the size of a batch. -/
inductive StepLog (limit : Nat) : List (Frame × DiskPos) → Prop where
  | nothing : StepLog limit []
  | single (p : Frame × DiskPos) (event : p.1.kind.isBatchMarker = false) : StepLog limit [p]
  | stopped (marker : Frame × DiskPos) (items : List (Frame × DiskPos))
      (isBegin : marker.1.kind = .systemBatchBegin)
      (positive : 0 < marker.1.payloadSize) (bounded : marker.1.payloadSize ≤ limit)
      (events : ∀ p ∈ items, p.1.kind.isBatchMarker = false)
      (fits : items.length ≤ marker.1.payloadSize) : StepLog limit (marker :: items)
  | committed (marker : Frame × DiskPos) (items : List (Frame × DiskPos))
      (commit : Frame × DiskPos)
      (isBegin : marker.1.kind = .systemBatchBegin)
      (positive : 0 < marker.1.payloadSize) (bounded : marker.1.payloadSize ≤ limit)
      (events : ∀ p ∈ items, p.1.kind.isBatchMarker = false)
      (complete : items.length = marker.1.payloadSize)
      (isCommit : commit.1.kind = .systemBatchCommit) :
      StepLog limit (marker :: (items ++ [commit]))

theorem locate_append (id : Nat) (a b : List Chunk) (offset : Nat) :
    Segment.locate id offset (a ++ b) =
      Segment.locate id offset a ++ Segment.locate id (offset + (a.map Chunk.length).sum) b := by
  induction a generalizing offset with
  | nil => rfl
  | cons c rest ih =>
      cases c with
      | frame f length =>
          simp only [List.cons_append, Segment.locate, ih, List.map_cons, List.sum_cons,
            Chunk.length, Nat.add_assoc]
      | torn length =>
          simp only [List.cons_append, Segment.locate, ih, List.map_cons, List.sum_cons,
            Chunk.length, Nat.add_assoc]

/-- `s` has added `delta` to the log of `s₀`, and no write of it is cut short. -/
structure Logged (s₀ : WriterCore) (delta : List (Frame × DiskPos)) (s : WriterCore) : Prop where
  log : s.log = s₀.log ++ delta
  whole : s.Whole

theorem Logged.start (h : s.Whole) : Logged s [] s :=
  ⟨(List.append_nil _).symm, h⟩

/-! ### The log of the files -/

namespace DiskView

def log (d : DiskView) : List (Frame × DiskPos) :=
  d.segments.flatMap Segment.located

def Whole (d : DiskView) : Prop :=
  ∀ seg ∈ d.segments, ∀ c ∈ seg.chunks, c.isWhole = true

theorem whole_iff :
    d.Whole ↔ (∀ seg ∈ d.sealed, ∀ c ∈ seg.chunks, c.isWhole = true) ∧
      ∀ c ∈ d.active.chunks, c.isWhole = true := by
  simp [Whole, segments, or_imp, forall_and]

end DiskView

theorem log_eq (d : DiskView) :
    d.log = d.sealed.flatMap Segment.located ++ d.active.located := by
  simp [DiskView.log, DiskView.segments]

/-- Only the chunks of the files count. -/
theorem log_congr (hsealed : d'.sealed = d.sealed) (hactive : d'.active.located = d.active.located) :
    d'.log = d.log := by
  rw [log_eq, log_eq, hsealed, hactive]

theorem log_rotated (h : MayRotate cfg d d') :
    d'.log = d.log := by
  cases h with
  | stay => rfl
  | rotate footerFails full =>
      have hsealed : (if footerFails then d.active.sync
          else d.active.sync.writeSidxFooter d.collector).located = d.active.located := by
        cases footerFails with
        | true => rfl
        | false => rfl
      have hempty : (Segment.create (d.segmentId + 1) cfg.headerBytes).located = [] := rfl
      rw [log_eq, log_eq]
      simp [DiskView.rotate, hsealed, hempty]

theorem located_put (d : DiskView) (c : Chunk) :
    (d.put c).active.located =
      d.active.located ++ Segment.locate d.active.id d.active.framesEnd [c] :=
  locate_append d.active.id d.active.chunks [c] d.active.headerBytes

theorem framesEnd_put (d : DiskView) (c : Chunk) :
    (d.put c).active.framesEnd = d.active.framesEnd + c.length := by
  simp [Segment.framesEnd, DiskView.put, Nat.add_assoc]

theorem locate_cons (id offset : Nat) (c : Chunk) (cs : List Chunk) :
    Segment.locate id offset (c :: cs) =
      Segment.locate id offset [c] ++ Segment.locate id (offset + c.length) cs := by
  have h := locate_append id [c] cs offset
  simpa using h

theorem located_putAll (d : DiskView) (cs : List Chunk) :
    (d.putAll cs).active.located =
      d.active.located ++ Segment.locate d.active.id d.active.framesEnd cs := by
  induction cs generalizing d with
  | nil => simp [Segment.locate]
  | cons c rest ih =>
      have hcons := locate_cons d.active.id d.active.framesEnd c rest
      rw [putAll_cons, ih, located_put, framesEnd_put, hcons, List.append_assoc]
      rfl

theorem chunks_putAll (d : DiskView) (cs : List Chunk) :
    (d.putAll cs).active.chunks = d.active.chunks ++ cs := by
  induction cs generalizing d with
  | nil => simp
  | cons c rest ih =>
      rw [putAll_cons, ih]
      simp [DiskView.put]

theorem sealed_putAll (d : DiskView) (cs : List Chunk) : (d.putAll cs).sealed = d.sealed := by
  induction cs generalizing d with
  | nil => rfl
  | cons c rest ih => exact ih (d.put c)

/-- The frames of a written stretch are the frames that were to be written. -/
theorem frames_locate (rt : Runtime) (fs : List Frame) (id offset : Nat) :
    (Segment.locate id offset (fs.map (frameChunk rt))).map Prod.fst = fs := by
  induction fs generalizing offset with
  | nil => rfl
  | cons f rest ih => exact congrArg (f :: ·) (ih _)

/-- The files have grown by the frames `fs`. -/
structure Grown (d : DiskView) (fs : List Frame) (d' : DiskView) : Prop where
  log : ∃ delta, delta.map Prod.fst = fs ∧ d'.log = d.log ++ delta
  whole : d.Whole → d'.Whole

/-- Sealing the active file moves no frame. -/
theorem MayRotate.grown (h : MayRotate cfg d d') :
    Grown d [] d' := by
  have hlog : d'.log = d.log ++ [] := (log_rotated h).trans (List.append_nil _).symm
  refine ⟨⟨[], rfl, hlog⟩, fun hwhole => ?_⟩
  cases h with
  | stay => exact hwhole
  | rotate footerFails full =>
      obtain ⟨hsealed, hactive⟩ := DiskView.whole_iff.mp hwhole
      refine DiskView.whole_iff.mpr ⟨fun seg hseg => ?_, nofun⟩
      rcases List.mem_append.mp hseg with hseg | hseg
      · exact hsealed seg hseg
      · rw [List.mem_singleton.mp hseg]
        cases footerFails <;> exact hactive

theorem Grown.putAll (h : Grown d [] d') (rt : Runtime) (fs : List Frame) :
    Grown d fs (d'.putAll (fs.map (frameChunk rt))) := by
  obtain ⟨delta, hdelta, hlog⟩ := h.log
  rw [List.map_eq_nil_iff.mp hdelta, List.append_nil] at hlog
  constructor
  case log =>
      refine ⟨_, frames_locate rt fs d'.active.id d'.active.framesEnd, ?_⟩
      rw [← hlog, log_eq, log_eq, located_putAll, sealed_putAll,
        List.append_assoc]
  case whole =>
      intro hwhole
      obtain ⟨hsealed, hactive⟩ := DiskView.whole_iff.mp (h.whole hwhole)
      rw [DiskView.whole_iff, sealed_putAll, chunks_putAll]
      refine ⟨hsealed, fun c hc => ?_⟩
      rcases List.mem_append.mp hc with hc | hc
      · exact hactive c hc
      · obtain ⟨f, -, rfl⟩ := List.mem_map.mp hc
        rfl

/-- Syncing the active file and collecting its rows move no frame. -/
theorem Grown.sync {fs : List Frame} (h : Grown d fs d') (rows : List SidxEntry) :
    Grown d fs (d'.sync.collect rows) := by
  obtain ⟨delta, hdelta, hlog⟩ := h.log
  have hsame : (d'.sync.collect rows).log = d'.log := log_congr rfl rfl
  have hwhole : d'.Whole → (d'.sync.collect rows).Whole := fun hd =>
    DiskView.whole_iff.mpr ((@DiskView.whole_iff d').mp hd)
  exact ⟨⟨delta, hdelta, hsame.trans hlog⟩, fun hd => hwhole (h.whole hd)⟩

theorem Grown.logged {s₀ : WriterCore} {fs : List Frame} (h : Grown s₀.disk fs s.disk)
    (hwhole : s₀.Whole) : ∃ delta, delta.map Prod.fst = fs ∧ Logged s₀ delta s := by
  obtain ⟨delta, hdelta, hlog⟩ := h.log
  exact ⟨delta, hdelta, hlog, h.whole hwhole⟩

theorem Grown.nothing {s₀ : WriterCore} (h : Grown s₀.disk [] s.disk) (hwhole : s₀.Whole) :
    Logged s₀ [] s := by
  obtain ⟨delta, hdelta, hlogged⟩ := h.logged hwhole
  rwa [List.map_eq_nil_iff.mp hdelta] at hlogged

/-! ### The single append -/

theorem stageAppend_kind {req : AppendRequest} {latest : Option IndexEntry} {segmentId seq : Nat}
    {fence : Option Nat} {st : StagedCommittedEvent}
    (h : stageAppend rt req latest segmentId seq fence = .ok st) :
    st.frame.kind.isBatchMarker = false := by
  obtain ⟨clock, -, h⟩ := bindOk_iff.mp h
  obtain ⟨rawMs, -, h⟩ := bindOk_iff.mp h
  cases h
  exact req.kind_appendable

/-- An append adds its event or nothing. -/
def LoggedAppend (s₀ : WriterCore) (eventId : Nat) (s : WriterCore) : Prop :=
  Logged s₀ [] s ∨ ∃ p, p.1.kind.isBatchMarker = false ∧ p.1.eventId = eventId ∧ Logged s₀ [p] s

variable {s₀ s s' : WriterCore}

theorem LoggedAppend.stepLog {limit : Nat} (h : LoggedAppend s₀ eventId s) :
    ∃ d, StepLog limit d ∧ Logged s₀ d s := by
  rcases h with h | ⟨p, hkind, -, h⟩
  · exact ⟨[], .nothing, h⟩
  · exact ⟨[p], .single _ hkind, h⟩

theorem Grown.loggedAppend {f : Frame} (h : Grown s₀.disk [f] s.disk) (hwhole : s₀.Whole)
    (hkind : f.kind.isBatchMarker = false) (hid : f.eventId = eventId) :
    LoggedAppend s₀ eventId s := by
  obtain ⟨delta, hdelta, hlogged⟩ := h.logged hwhole
  obtain ⟨p, rfl, rfl⟩ := List.map_eq_singleton_iff.mp hdelta
  exact .inr ⟨p, hkind, hid, hlogged⟩

/-- An append adds its event frame or nothing. -/
theorem handleAppend_log (cfg : StoreConfig) (rt : Runtime) {flt : Faults}
    (htear : flt.NoTear) (req : AppendRequest) (fenced : Bool) (hwhole : s.Whole) :
    LoggedAppend s req.eventId (finalState (handleAppend cfg rt flt req fenced s)) := by
  have hframe : ∀ {st : StagedCommittedEvent}, StagedAppend rt req fenced s st →
      st.frame.kind.isBatchMarker = false ∧ st.frame.eventId = req.eventId :=
    fun hst => ⟨stageAppend_kind hst, (stageAppend_ok hst).2.2.2.1⟩
  cases handleAppend_effect cfg rt flt req fenced s with
  | failed disk inserted latest =>
      obtain ⟨d₁, left, hrotated, hleft, hdisk⟩ := disk
      cases hleft with
      | nothing =>
          have hgrown : Grown s.disk [] d₁ := hrotated.grown
          rw [putAll_nil] at hdisk
          rw [← hdisk] at hgrown
          exact .inl (hgrown.nothing hwhole)
      | torn k tears => exact absurd htear tears
      | orphan st hst =>
          have hgrown := hrotated.grown.putAll rt [st.frame]
          rw [List.map_singleton, ← hdisk] at hgrown
          exact hgrown.loggedAppend hwhole (hframe hst).1 (hframe hst).2
  | committed st pos staged disk inserted latest =>
      obtain ⟨d₁, hrotated, -, hdisk⟩ := disk
      have hgrown : Grown s.disk [st.frame] (d₁.put (frameChunk rt st.frame)) :=
        hrotated.grown.putAll rt [st.frame]
      have hcollected : Grown s.disk [st.frame]
          (finalState (handleAppend cfg rt flt req fenced s)).disk := by
        rw [hdisk]
        exact ⟨hgrown.log, hgrown.whole⟩
      exact hcollected.loggedAppend hwhole (hframe staged).1 (hframe staged).2

/-! ### The batch -/

/-- The step log of a batch of at most `limit` items. -/
def LoggedStep (limit : Nat) (s₀ s : WriterCore) : Prop :=
  ∃ d, StepLog limit d ∧ Logged s₀ d s

theorem validateBatch_size {items : List BatchAppendItem} (h : validateBatch cfg rt items = .ok ()) :
    items.length ≤ cfg.batchMaxSize := by
  unfold validateBatch at h
  dsimp only at h
  split at h
  · cases h
  · omega

/-- The frames of a whole batch. -/
def envelopeFrames (batchId : Nat) (nowUs : Int) (nowMs : Nat)
    (staged : List StagedCommittedEvent) : List Frame :=
  batchMarkerFrame batchId .systemBatchBegin staged.length nowUs nowMs ::
    (staged.map (·.frame) ++ [batchMarkerFrame batchId .systemBatchCommit 0 nowUs nowMs])

theorem envelope_eq (rt : Runtime) (batchId : Nat) (nowUs : Int) (nowMs : Nat)
    (staged : List StagedCommittedEvent) :
    envelope rt batchId nowUs nowMs staged =
      (envelopeFrames batchId nowUs nowMs staged).map (frameChunk rt) := by
  simp [envelope, envelopeFrames]

/-- An envelope cut behind any of its frames is a step log. -/
theorem stepLog_of_envelope {limit batchId : Nat} {nowUs : Int} {nowMs : Nat}
    {staged : List StagedCommittedEvent} (hpos : 0 < staged.length)
    (hlimit : staged.length ≤ limit)
    (hkinds : ∀ st ∈ staged, st.frame.kind.isBatchMarker = false) (n : Nat)
    {delta : List (Frame × DiskPos)}
    (hdelta : delta.map Prod.fst = (envelopeFrames batchId nowUs nowMs staged).take n) :
    StepLog limit delta := by
  have hevents : ∀ items : List (Frame × DiskPos), (∃ k, items.map Prod.fst =
      (staged.map (·.frame)).take k) → ∀ p ∈ items, p.1.kind.isBatchMarker = false := by
    rintro items ⟨k, hitems⟩ p hp
    have hmem : p.1 ∈ (staged.map (·.frame)).take k := hitems ▸ List.mem_map_of_mem hp
    obtain ⟨st, hst, hframe⟩ := List.mem_map.mp (List.mem_of_mem_take hmem)
    rw [← hframe]
    exact hkinds st hst
  cases n with
  | zero =>
      rw [List.take_zero, List.map_eq_nil_iff] at hdelta
      rw [hdelta]
      exact .nothing
  | succ n =>
      rw [envelopeFrames, List.take_succ_cons, List.map_eq_cons_iff] at hdelta
      obtain ⟨marker, rest, rfl, hmarker, hrest⟩ := hdelta
      have hkind : marker.1.kind = .systemBatchBegin := by rw [hmarker]; rfl
      have hsize : marker.1.payloadSize = staged.length := by rw [hmarker]; rfl
      rcases Nat.lt_or_ge staged.length n with hall | hcut
      · -- the COMMIT marker is the last frame
        rw [List.take_of_length_le (by simp; omega), List.map_eq_append_iff] at hrest
        obtain ⟨items, last, rfl, hitems, hlast⟩ := hrest
        obtain ⟨commit, rfl, hcommit⟩ := List.map_eq_singleton_iff.mp hlast
        have hlen : items.length = staged.length := by
          have hlen := congrArg List.length hitems
          simpa using hlen
        exact .committed marker items commit hkind (hsize ▸ hpos) (hsize ▸ hlimit)
          (hevents items ⟨staged.length, by rw [hitems, List.take_of_length_le (by simp)]⟩)
          (hlen.trans hsize.symm) (by rw [hcommit]; rfl)
      · rw [List.take_append_of_le_length (by simpa using hcut)] at hrest
        have hlen : rest.length = n := by
          have hlen := congrArg List.length hrest
          simpa [hcut] using hlen
        exact .stopped marker rest hkind (hsize ▸ hpos) (hsize ▸ hlimit) (hevents rest ⟨n, hrest⟩)
          (by omega)

theorem StagedFrom.kinds {ctx : BatchContext} {ix : StoreIndex} {prev : List StagedCommittedEvent}
    {items : List BatchAppendItem} {new : List StagedCommittedEvent}
    (h : StagedFrom rt ctx ix prev items new) :
    ∀ st ∈ new, st.frame.kind.isBatchMarker = false := by
  induction h with
  | nil prev => nofun
  | cons prev item rest state causation more lane bounded tail ih =>
      intro st hst
      rcases List.mem_cons.mp hst with rfl | hst
      · exact item.kind_appendable
      · exact ih st hst

/-- A batch adds its envelope, cut short anywhere, or nothing. -/
theorem handleAppendBatch_log (cfg : StoreConfig) (rt : Runtime) {flt : Faults}
    (htear : flt.NoTear) (nowUs : Int) (items : List BatchAppendItem) (fenced : Bool)
    (hwhole : s.Whole) : LoggedStep cfg.batchMaxSize s
      (finalState (handleAppendBatch cfg rt flt nowUs items fenced s)) := by
  -- a batch that stages something is of a valid size
  have hstep : ∀ {batchId nowMs n : Nat} {staged : List StagedCommittedEvent} {s' : WriterCore},
      (items ≠ [] ∧ validateBatch cfg rt items = .ok ()) →
      BatchStaged rt items batchId fenced s staged →
      Grown s.disk ((envelopeFrames batchId nowUs nowMs staged).take n) s'.disk →
      LoggedStep cfg.batchMaxSize s s' := by
    rintro batchId nowMs n staged s' ⟨hne, hvalid⟩ ⟨ctx, -, -, hfrom⟩ hgrown
    obtain ⟨delta, hdelta, hlogged⟩ := hgrown.logged hwhole
    have hpos : 0 < staged.length := hfrom.length_eq ▸ List.length_pos_of_ne_nil hne
    have hlimit : staged.length ≤ cfg.batchMaxSize := hfrom.length_eq ▸ validateBatch_size hvalid
    exact ⟨delta, stepLog_of_envelope hpos hlimit hfrom.kinds n hdelta, hlogged⟩
  rcases handleAppendBatch_prelude cfg rt nowUs items fenced s with ⟨r, -, hdisk, hrun⟩ |
    ⟨s₀, hne, hvalid, hquiet, hdisk, hrun⟩ <;> rw [hrun]
  · have hgrown : Grown s.disk [] (finalState r).disk := by
      rw [hdisk]
      exact (@MayRotate.stay cfg s.disk).grown
    exact ⟨[], .nothing, hgrown.nothing hwhole⟩
  have hwritten : ∀ {staged : List StagedCommittedEvent} {places : List DiskPos} {d₁ : DiskView}
      {rows : List SidxEntry} {s' : WriterCore},
      BatchStaged rt items s.index.globalSequence fenced s staged →
      WrittenBatchDisk cfg rt s.index.globalSequence nowUs s.disk staged places d₁ →
      s'.disk = d₁.collect rows → LoggedStep cfg.batchMaxSize s s' := by
    rintro staged places d₁ rows s' hstaged ⟨d₂, nowMs, hrotated, -, -, rfl⟩ hdisk
    have hgrown := (hrotated.grown.putAll rt
      (envelopeFrames s.index.globalSequence nowUs nowMs staged)).sync rows
    rw [← envelope_eq, ← hdisk, ← List.take_length (l := envelopeFrames _ _ _ _)] at hgrown
    exact hstep ⟨hne, hvalid⟩ hstaged hgrown
  cases (handlePreparedBatch_effect cfg rt flt nowUs hne fenced s₀).of_quiet hquiet hdisk with
  | failed d₁ left rotated leftover disk inserted latest =>
      cases leftover with
      | nothing =>
          have hgrown : Grown s.disk [] d₁ := rotated.grown
          rw [putAll_nil] at disk
          rw [← disk] at hgrown
          exact ⟨[], .nothing, hgrown.nothing hwhole⟩
      | part staged nowMs left hstaged hleft =>
          cases hleft with
          | part n => 
              have hgrown := rotated.grown.putAll rt
                ((envelopeFrames s.index.globalSequence nowUs nowMs staged).take n)
              rw [List.map_take, ← envelope_eq, ← disk] at hgrown
              exact hstep ⟨hne, hvalid⟩ hstaged hgrown
          | torn n k more tears => exact absurd htear tears
  | unrecorded staged receipts d₁ n batch written disk inserted latest =>
      exact hwritten batch written disk
  | committed staged receipts d₁ nonempty batch written disk inserted latest =>
      exact hwritten batch written disk

/-! ### The open event -/

/-- Syncing the active file keeps the log. -/
theorem Logged.sync {delta : List (Frame × DiskPos)} (h : Logged s₀ delta s)
    (hdisk : s'.disk = s.disk ∨ s'.disk = s.disk.sync) : Logged s₀ delta s' := by
  have hsame : s'.disk.log = s.disk.log ∧ (s.disk.Whole → s'.disk.Whole) := by
    rcases hdisk with hdisk | hdisk
    · rw [hdisk]
      exact ⟨rfl, fun hd => hd⟩
    · rw [hdisk]
      exact ⟨log_congr rfl rfl, fun hd =>
        DiskView.whole_iff.mpr ((@DiskView.whole_iff s.disk).mp hd)⟩
  exact ⟨hsame.1.trans h.log, hsame.2 h.whole⟩

theorem LoggedAppend.sync (h : LoggedAppend s₀ eventId s)
    (hdisk : s'.disk = s.disk ∨ s'.disk = s.disk.sync) : LoggedAppend s₀ eventId s' := by
  rcases h with h | ⟨p, hkind, hid, h⟩
  · exact .inl (h.sync hdisk)
  · exact .inr ⟨p, hkind, hid, h.sync hdisk⟩

/-- Completing an open adds the open event or nothing. -/
theorem completeOpen_log (cfg : StoreConfig) (rt : Runtime) {inputs : OpenInputs}
    (htear : inputs.faults.NoTear) (hwhole : s.Whole) :
    LoggedAppend s inputs.eventId (finalState (completeOpen cfg rt inputs s)) := by
  have hstart : LoggedAppend s inputs.eventId s := .inl (Logged.start hwhole)
  have hkeep : ∀ {α : Type} (r : Except StoreError α),
      Keeps (LoggedAppend s inputs.eventId) (liftExcept r) := fun r => liftExcept_keeps r
  have hlift : ∀ {α : Type} (r : Except StoreError α),
      Triple (· = s) (liftExcept r) (fun _ => (· = s)) (LoggedAppend s inputs.eventId) :=
    fun r => Triple.onError (liftExcept_keeps r) fun t ht => ht ▸ hstart
  have hrun : Triple (· = s) (completeOpen cfg rt inputs)
      (fun _ => LoggedAppend s inputs.eventId) (LoggedAppend s inputs.eventId) := by
    refine Triple.read fun t => ?_
    refine Triple.bind (hlift _) fun lastClose => ?_
    refine Triple.bind (hlift _) fun _ => ?_
    refine Triple.bind (Q := fun _ => LoggedAppend s inputs.eventId) ?_ fun receipt => ?_
    · rintro _ rfl
      exact Post.of_finalState (handleAppend_log cfg rt htear (openCompletedRequest inputs.eventId
        inputs.report (openCandidate (highestHlc t.index.allEntries) lastClose inputs.nowUs)) false
        hwhole)
    refine Triple.read fun t => ?_
    refine Triple.bind (hkeep _) fun entry => ?_
    refine Triple.bind (hkeep _) fun lastClose => ?_
    refine Triple.bind (hkeep _) fun _ => ?_
    refine Triple.bind (Q := fun _ => LoggedAppend s inputs.eventId) ?_ fun _ => ?_
    · intro t ht
      have hsync := syncActiveSegment_disk inputs.faults t rfl
      exact hsync.mono (fun _ _ h => ht.sync (.inr h)) fun _ h => ht.sync (.inl h)
    · exact Triple.modify fun t ht => ht.sync (.inl rfl)
  exact Post.finalState (hrun s rfl)

end Batpak.Store
