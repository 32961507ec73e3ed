/-
Module: Batpak.Proofs.BatchEquivalence
Purpose: When a batch commits what its items commit one by one, compared by receipts, event
  frames and index entries.
Trusted boundary: the encoder keeps the frames of admissible items below 4 GiB
Main exports: BatchMatchesSingles, SinglesRefused
-/
import Batpak.Proofs.CasUniqueness
import Batpak.Proofs.GateBounds
import Batpak.Proofs.LaneBounds
import Batpak.Proofs.LogGrowth
import Batpak.Proofs.RecordedEffects

namespace Batpak.Store

open Batpak.Util

variable {earlier items : List BatchAppendItem} {staged : List StagedCommittedEvent}
  {receipts : List AppendReceipt} {item : BatchAppendItem} {rt : Runtime} {ctx : BatchContext}
  {nowMs : Nat}

/-! ### Appending singly -/

/-- The caller names an earlier item by the id it was given. -/
def resolveAgainst (item : BatchAppendItem) (ids : List Nat) : Except StoreError (Option Nat) :=
  match item.causation with
  | .none => .ok item.causationId
  | .absolute id => .ok (if id = 0 then none else some id)
  | .priorItem prior =>
      if ids.length ≤ prior then
        .error (.invalidCausation prior ids.length "no such event yet")
      else .ok ids[prior]?

/-- Append the items one by one, in order, without faults. -/
def appendSingly (cfg : StoreConfig) (rt : Runtime) (nowUs : Int) (fenced : Bool) :
    List BatchAppendItem → List AppendReceipt → WriterM (List AppendReceipt)
  | [], receipts => pure receipts
  | item :: rest, receipts => do
      let causation ← liftExcept (resolveAgainst item (receipts.map (·.eventId)))
      let receipt ← handleAppend cfg rt .none (item.asRequest nowUs causation) fenced
      appendSingly cfg rt nowUs fenced rest (receipts ++ [receipt])

theorem resolveAgainst_eq (earlier : List BatchAppendItem) (item : BatchAppendItem) :
    (refersBack earlier item = true ∧
      resolveAgainst item (earlier.map (·.eventId)) = .ok (itemCausation earlier item)) ∨
    (refersBack earlier item = false ∧
      ∃ e, resolveAgainst item (earlier.map (·.eventId)) = .error e) := by
  unfold resolveAgainst refersBack itemCausation
  cases item.causation with
  | none => exact Or.inl ⟨rfl, rfl⟩
  | absolute id => exact Or.inl ⟨rfl, rfl⟩
  | priorItem prior =>
      by_cases hprior : prior < earlier.length
      · have hnot : ¬(earlier.map (·.eventId)).length ≤ prior := by simpa using hprior
        exact Or.inl ⟨decide_eq_true hprior, by
          simp only [hnot, if_false, List.getElem?_map]⟩
      · have hle : (earlier.map (·.eventId)).length ≤ prior := by simpa using hprior
        exact Or.inr ⟨decide_eq_false hprior, _, by simp only [hle, if_true]; rfl⟩

/-! ### What is compared -/

def AppendReceipt.unplaced (r : AppendReceipt) : AppendReceipt :=
  { r with diskPos := default }

def IndexEntry.unplaced (e : IndexEntry) : IndexEntry :=
  { e with diskPos := default }

/-- The event frames of all files, in order. -/
def DiskView.events (d : DiskView) : List Frame :=
  sourceEvents d.segments

/-- What a run committed: receipts, event frames and index entries, wherever on disk. -/
def observe (r : EStateM.Result StoreError WriterCore (List AppendReceipt)) :
    Option (List AppendReceipt × List Frame × List IndexEntry) :=
  match r with
  | .ok receipts s =>
      some (receipts.map (·.unplaced), s.disk.events, s.index.inserted.map (·.unplaced))
  | .error _ _ => none

/-- The batch and the single appends both fail, or they commit the same events, with
consecutive sequences from the allocator's position on. -/
def BatchMatchesSingles (cfg : StoreConfig) (rt : Runtime) (nowUs : Int)
    (items : List BatchAppendItem) (fenced : Bool) (s : WriterCore) : Prop :=
  observe (handleAppendBatch cfg rt .none nowUs items fenced s) =
      observe (appendSingly cfg rt nowUs fenced items [] s) ∧
    ∀ receipts s', handleAppendBatch cfg rt .none nowUs items fenced s = .ok receipts s' →
      receipts.map (·.globalSequence) = List.range' s.index.globalSequence items.length

/-! ### Event frames on disk -/

section Events

variable {cfg : StoreConfig} {d d₁ : DiskView}

@[simp] theorem events_collect (d : DiskView) (rows : List SidxEntry) :
    (d.collect rows).events = d.events := rfl

theorem sourceEvents_append (xs ys : List Segment) :
    sourceEvents (xs ++ ys) = sourceEvents xs ++ sourceEvents ys :=
  List.flatMap_append ..

theorem events_eq (d : DiskView) : d.events = sourceEvents d.sealed ++ eventFrames d.active.chunks := by
  unfold DiskView.events DiskView.segments
  rw [sourceEvents_append]
  simp [sourceEvents]

@[simp] theorem events_sync (d : DiskView) : d.sync.events = d.events := by
  rw [events_eq, events_eq]
  rfl

theorem events_put (d : DiskView) (c : Chunk) : (d.put c).events = d.events ++ eventFrames [c] := by
  rw [events_eq, events_eq, List.append_assoc, ← eventFrames_append]
  rfl

theorem events_putAll (d : DiskView) (cs : List Chunk) :
    (d.putAll cs).events = d.events ++ eventFrames cs := by
  induction cs generalizing d with
  | nil => simp
  | cons c rest ih =>
      rw [putAll_cons, ih, events_put, List.append_assoc, ← eventFrames_append]
      rfl

theorem MayRotate.events (h : MayRotate cfg d d₁) : d₁.events = d.events := by
  cases h with
  | stay => rfl
  | rotate footerFails full =>
      rw [events_eq, events_eq]
      unfold DiskView.rotate
      rw [sourceEvents_append]
      have hsealed : sourceEvents [if footerFails = true then d.active.sync
          else d.active.sync.writeSidxFooter d.collector] = eventFrames d.active.chunks := by
        cases footerFails <;> simp [sourceEvents, Segment.sync, Segment.writeSidxFooter]
      rw [hsealed]
      simp [Segment.create]

theorem eventFrames_frameChunk (rt : Runtime) {f : Frame} (h : f.kind.isBatchMarker = false) :
    eventFrames [frameChunk rt f] = [f] := by
  simp [eventFrames, frameChunk, h]

theorem eventFrames_staged (h : ∀ st ∈ staged, st.frame.kind.isBatchMarker = false) :
    eventFrames (staged.map fun st => frameChunk rt st.frame) = staged.map (·.frame) := by
  induction staged with
  | nil => rfl
  | cons st rest ih =>
      have htail := ih fun st' hst' => h st' (List.mem_cons_of_mem _ hst')
      have hhead := eventFrames_frameChunk rt (h st List.mem_cons_self)
      rw [List.map_cons, ← List.singleton_append, eventFrames_append, hhead, htail]
      rfl

/-- The markers of an envelope are no events. -/
theorem eventFrames_envelope {firstSeq nowMs : Nat} {nowUs : Int}
    (h : ∀ st ∈ staged, st.frame.kind.isBatchMarker = false) :
    eventFrames (envelope rt firstSeq nowUs nowMs staged) = staged.map (·.frame) := by
  have hmarker : ∀ (kind : EventKind) (n : Nat), kind.isBatchMarker = true →
      eventFrames [frameChunk rt (batchMarkerFrame firstSeq kind n nowUs nowMs)] = [] := by
    intro kind n hkind
    have hframe : (batchMarkerFrame firstSeq kind n nowUs nowMs).kind.isBatchMarker = true := hkind
    simp [eventFrames, frameChunk, hframe]
  unfold envelope
  rw [← List.singleton_append, eventFrames_append, eventFrames_append, hmarker _ _ rfl,
    hmarker _ _ rfl, eventFrames_staged h]
  simp

end Events

/-! ### A state that serves appends -/

/-- An append under a fence finds the ledger of the fence the gate has active. -/
def FenceOpen (fenced : Bool) (s : WriterCore) : Prop :=
  fenced = true → ∃ fence, s.fenceLedger = some fence ∧ s.index.gate.activeFence = fence.token

/-- The gate shows nothing beyond the allocator, and the fence of a fenced append is open. -/
structure Serving (fenced : Bool) (s : WriterCore) : Prop where
  bounded : Bounded s.index.gate
  ledger : FenceOpen fenced s

/-- Publication of `n` new events from a serving state goes through and serves on. -/
theorem publishCommitted_serves {fenced : Bool} {s s₁ : WriterCore} {n : Nat}
    {notifications : List Notification} (hserving : Serving fenced s)
    (hgate : s₁.index.gate = s.index.gate.reserve n) (hledger : s₁.fenceLedger = s.fenceLedger)
    (hannounced : ∀ m ∈ notifications,
      s.index.globalSequence ≤ m.sequence ∧ m.sequence < s.index.globalSequence + n)
    (point : HlcPoint) :
    ∃ s₂, publishCommitted fenced s.index.globalSequence (s.index.globalSequence + n) point
        notifications s₁ = .ok () s₂ ∧ Serving fenced s₂ ∧ PublishOnly s₁ s₂ ∧
      s₂.index.globalSequence = s.index.globalSequence + n ∧
      fenceIdentity s₂ fenced = fenceIdentity s fenced := by
  have honly := publishCommitted_publishOnly fenced s.index.globalSequence
    (s.index.globalSequence + n) point notifications s₁
  cases fenced with
  | false =>
      have hpublish : s₁.index.gate.publishOnLanes (s.index.globalSequence + n)
          (laneBounds notifications) "publish_then_broadcast_unfenced" =
          .ok { s.index.gate.reserve n with
            visible := s.index.globalSequence + n
            laneVisible := SequenceGate.installLanes s.index.gate.laneVisible
              (laneBounds notifications) } := by
        rw [hgate]
        apply publishOnLanes_laneBounds
        · exact Nat.le_trans hserving.bounded.visible (Nat.le_add_right _ _)
        · exact Nat.le_refl _
        · intro m hm
          obtain ⟨hlow, hhigh⟩ := hannounced m hm
          exact ⟨Nat.le_trans (hserving.bounded.laneVisible m.lane) hlow, hhigh⟩
      have hrun : publishCommitted false s.index.globalSequence (s.index.globalSequence + n) point
          notifications s₁ = .ok () { s₁ with
            index := { s₁.index with gate := { s.index.gate.reserve n with
              visible := s.index.globalSequence + n
              laneVisible := SequenceGate.installLanes s.index.gate.laneVisible
                (laneBounds notifications) } }
            watermark := advanceVisibleOnLanes (s₁.watermark.advanceVisibleAndEmitted point)
              notifications } := by
        change publishThenBroadcastUnfenced _ _ _ _ = _
        unfold publishThenBroadcastUnfenced
        rw [hpublish]
      rw [hrun] at honly
      have hbounded : Bounded (s.index.gate.reserve n) := hserving.bounded.reserve n
      refine ⟨_, hrun, ⟨?_, fun h => (by cases h)⟩, honly, rfl, rfl⟩
      exact hbounded.publishOnLanes (hgate ▸ hpublish)
  | true =>
      obtain ⟨fence, hfence, htoken⟩ := hserving.ledger rfl
      have hactive : s₁.index.gate.activeFence = fence.token := by
        rw [hgate]
        exact htoken
      have hrun : ∃ s₂, publishCommitted true s.index.globalSequence (s.index.globalSequence + n)
          point notifications s₁ = .ok () s₂ ∧ (∃ grown : FenceLedger,
            s₂.fenceLedger = some grown ∧ grown.token = fence.token ∧
            grown.identity = fence.identity) ∧ s₂.index.gate.activeFence = fence.token ∧
            s₂.index.gate.allocated = s₁.index.gate.allocated := by
        change ∃ s₂, recordFenceProgress _ _ _ _ _ = _ ∧ _
        unfold recordFenceProgress
        rw [hledger, hfence]
        dsimp only
        rw [SequenceGate.noteFenceProgress, if_pos hactive]
        exact ⟨_, rfl, ⟨_, rfl, rfl, rfl⟩, hactive, rfl⟩
      obtain ⟨s₂, hrun, ⟨grown, hgrown, hsame, hidentity⟩, hgate₂, hallocated⟩ := hrun
      rw [hrun] at honly
      refine ⟨s₂, hrun, ?_, honly, ?_, ?_⟩
      · refine ⟨?_, fun _ => ⟨grown, hgrown, hgate₂.trans hsame.symm⟩⟩
        have hbounded := @publishCommitted_bounded s₁ true s.index.globalSequence
          (s.index.globalSequence + n) point notifications (hgate ▸ hserving.bounded.reserve n)
        rw [hrun] at hbounded
        exact hbounded
      · change s₂.index.gate.allocated = _
        rw [hallocated, hgate]
        rfl
      · simp only [fenceIdentity, if_true, hgrown, hfence, Option.map_some, hidentity]

/-! ### One single append -/

/-- Without a key and without an expected clock nothing stands before the commit. -/
theorem handleAppend_unguarded (cfg : StoreConfig) (rt : Runtime) (flt : Faults)
    {req : AppendRequest} (hcas : req.expectedSequence = none) (hkey : req.idempotencyKey = none)
    (fenced : Bool) (s : WriterCore) :
    handleAppend cfg rt flt req fenced s =
      commitAppend cfg rt flt req (req.latest s.index) fenced s := by
  have hget : (MonadState.get : WriterM WriterCore) s = .ok s s := rfl
  have hguard : checkExpectedSequence req
      (s.index.getLatestCommitted req.coord.entity req.dagLane) = .ok () := by
    unfold checkExpectedSequence
    rw [hcas]
  unfold handleAppend
  rw [bind_of_ok hget, bind_of_ok (liftExcept_of_ok hguard s), hkey]
  rfl

/-- What a fault-free append of a staged event leaves behind. -/
structure Served (fenced : Bool) (s : WriterCore) (st : StagedCommittedEvent) (pos : DiskPos)
    (s' : WriterCore) : Prop where
  serving : Serving fenced s'
  allocated : s'.index.globalSequence = s.index.globalSequence + 1
  identity : fenceIdentity s' fenced = fenceIdentity s fenced
  inserted : s'.index.inserted = st.indexEntry pos :: s.index.inserted
  latest : s'.index.latest = st.indexEntry pos :: s.index.latest
  events : s'.disk.events = s.disk.events ++ [st.frame]

theorem handleAppend_serves (cfg : StoreConfig) {req : AppendRequest}
    {fenced : Bool} {s : WriterCore} {st : StagedCommittedEvent} (hserving : Serving fenced s)
    (hcas : req.expectedSequence = none) (hkey : req.idempotencyKey = none)
    (hstaged : StagedAppend rt req fenced s st) (hfits : rt.frameLength st.frame ≤ u32Max) :
    ∃ pos s', handleAppend cfg rt .none req fenced s =
        .ok { st.receipt with diskPos := pos } s' ∧ Served fenced s st pos s' := by
  obtain ⟨pos, s₁, hdisk, hrun⟩ := commitAppend_commits cfg hstaged hfits
  have hsequence : st.globalSequence = s.index.globalSequence :=
    (stageAppend_ok hstaged).2.2.2.2.1
  have hgate : (commitState req.idempotencyKey.isSome st pos s₁).index.gate =
      s.index.gate.reserve 1 := by
    change s₁.index.gate.reserve 1 = _
    rw [hdisk.index]
  have hledger : (commitState req.idempotencyKey.isSome st pos s₁).fenceLedger = s.fenceLedger :=
    hdisk.fenceLedger
  have hannounced : ∀ m ∈ [st.notification], s.index.globalSequence ≤ m.sequence ∧
      m.sequence < s.index.globalSequence + 1 := by
    intro m hm
    rw [List.mem_singleton.mp hm]
    change _ ≤ st.globalSequence ∧ st.globalSequence < _
    rw [hsequence]
    exact ⟨Nat.le_refl _, Nat.lt_succ_self _⟩
  obtain ⟨s₂, hpublish, hserving₂, honly, hallocated, hidentity⟩ :=
    publishCommitted_serves hserving hgate hledger hannounced st.point
  have hresult : handleAppend cfg rt .none req fenced s =
      .ok { st.receipt with diskPos := pos } s₂ := by
    rw [handleAppend_unguarded cfg rt .none hcas hkey, hrun]
    unfold publishAppend
    rw [hsequence, bind_of_ok hpublish]
    rfl
  have hinserted : s₂.index.inserted = st.indexEntry pos :: s.index.inserted := by
    rw [honly.inserted]
    change _ :: s₁.index.inserted = _
    rw [hdisk.index]
  refine ⟨pos, s₂, hresult, hserving₂, hallocated, hidentity, hinserted, ?_, ?_⟩
  · rw [honly.latest]
    change _ :: s₁.index.latest = _
    rw [hdisk.index]
  · have heffect := handleAppend_effect cfg rt .none req fenced s
    rw [hresult, finalState_ok] at heffect
    cases heffect with
    | failed disk inserted latest =>
        rw [hinserted] at inserted
        exact absurd inserted (List.cons_ne_self _ _)
    | committed st' pos' staged disk inserted latest =>
        cases (Except.ok.inj (hstaged.symm.trans staged))
        obtain ⟨d₁, hrotated, -, hfiles⟩ := disk
        rw [hfiles, events_collect, events_put, hrotated.events,
          eventFrames_frameChunk rt (stageAppend_kind hstaged)]

/-! ### What the encoder must fit -/

/-- The extensions a frame of the item may store: the item's own, or those with the
downgrade note of a receipt that could not be signed. -/
def StoresExtensions (rt : Runtime) (item : BatchAppendItem) (f : Frame) : Prop :=
  f.receiptExtensions = item.extensions ∨ ∃ body, rt.downgradeBody = some body ∧
    f.receiptExtensions = insertExtension "batpak.signing.downgrade" body item.extensions

/-- Frames stay below 4 GiB: the batch size is a `u32`, and payloads, coordinates and
extensions are capped long before they reach the writer. -/
structure Encodable (cfg : StoreConfig) (rt : Runtime) (items : List BatchAppendItem) : Prop where
  batchSize : cfg.batchMaxSize ≤ u32Max
  payloads : ∀ item ∈ items, item.payload.length ≤ u32Max
  frames : ∀ item ∈ items, ∀ f : Frame, f.payload = item.payload → f.coord = item.coord →
    StoresExtensions rt item f → rt.frameLength f ≤ u32Max
  markers : ∀ firstSeq kind n nowUs nowMs,
    rt.frameLength (batchMarkerFrame firstSeq kind n nowUs nowMs) ≤ u32Max

theorem stagedItem_storesExtensions (rt : Runtime) (ctx : BatchContext) (ix : StoreIndex)
    (earlier : List BatchAppendItem) (item : BatchAppendItem) :
    StoresExtensions rt item (stagedItem rt ctx ix earlier item).frame :=
  signAppendReceipt_extensions ..

theorem Encodable.staged_le {cfg : StoreConfig} {items : List BatchAppendItem}
    (h : Encodable cfg rt items) (hitem : item ∈ items)
    (ctx : BatchContext) (ix : StoreIndex) (earlier : List BatchAppendItem) :
    rt.frameLength (stagedItem rt ctx ix earlier item).frame ≤ u32Max :=
  h.frames item hitem _ rfl rfl (stagedItem_storesExtensions rt ctx ix earlier item)

theorem Encodable.single {cfg : StoreConfig} {items : List BatchAppendItem}
    (h : Encodable cfg rt items) (hitem : item ∈ items)
    (ctx : BatchContext) (ix : StoreIndex) (earlier : List BatchAppendItem) :
    rt.frameLength (singleStaged rt ctx ix earlier item).frame ≤ u32Max :=
  h.frames item hitem _ rfl rfl (stagedItem_storesExtensions rt ctx ix earlier item)

/-! ### The active segment plays no role -/

theorem signedReceipt_unplaced (rt : Runtime) (segmentId segmentId' eventId sequence : Nat)
    (contentHash : Digest) (extensions : Extensions) (coord : Coordinate) (kind : EventKind)
    (prevHash : Digest) :
    (signedReceipt rt segmentId eventId sequence contentHash extensions coord kind
        prevHash).unplaced =
      (signedReceipt rt segmentId' eventId sequence contentHash extensions coord kind
        prevHash).unplaced := by
  unfold signedReceipt signAppendReceipt downgradeReceiptSigning
  cases rt.coverBytes eventId sequence coord kind prevHash contentHash extensions with
  | none => rfl
  | some cover =>
      cases rt.signer with
      | none => rfl
      | some signer => rfl

/-- Two staged events that differ at most in the place their receipts report. -/
structure SameStaged (a b : StagedCommittedEvent) : Prop where
  frame : a.frame = b.frame
  causationId : a.causationId = b.causationId
  globalSequence : a.globalSequence = b.globalSequence
  receipt : a.receipt.unplaced = b.receipt.unplaced

theorem SameStaged.indexEntry {a b : StagedCommittedEvent} (h : SameStaged a b)
    (pos : DiskPos) : (a.indexEntry pos).unplaced = b.indexEntry default := by
  unfold StagedCommittedEvent.indexEntry IndexEntry.unplaced
  rw [h.frame, h.causationId, h.globalSequence]

theorem stagedItem_segment (rt : Runtime) (ctx : BatchContext) (ix : StoreIndex)
    (earlier : List BatchAppendItem) (item : BatchAppendItem) (segmentId : Nat) :
    SameStaged (stagedItem rt { ctx with segmentId := segmentId } ix earlier item)
      (stagedItem rt ctx ix earlier item) := by
  have hreceipt := signedReceipt_unplaced rt segmentId ctx.segmentId item.eventId
    (ctx.firstSeq + earlier.length) (rt.computeHash item.payload) item.extensions item.coord
    item.kind (laneBefore rt ctx.nowMs ix earlier item.coord.entity item.dagLane).prevHash
  have hextensions := congrArg AppendReceipt.extensions hreceipt
  refine ⟨?_, rfl, rfl, hreceipt⟩
  simp only [AppendReceipt.unplaced] at hextensions
  simp only [stagedItem, stageItem, hextensions]

theorem singleStaged_segment (rt : Runtime) (ctx : BatchContext) (ix : StoreIndex)
    (earlier : List BatchAppendItem) (item : BatchAppendItem) (segmentId : Nat) :
    SameStaged (singleStaged rt { ctx with segmentId := segmentId } ix earlier item)
      (singleStaged rt ctx ix earlier item) := by
  have hsame := stagedItem_segment rt ctx ix earlier item segmentId
  refine ⟨?_, rfl, rfl, hsame.receipt⟩
  simp only [singleStaged, hsame.frame, hsame.causationId]

theorem singlesStaged_append (rt : Runtime) (ctx : BatchContext) (ix : StoreIndex)
    (earlier items : List BatchAppendItem) (last : BatchAppendItem) :
    singlesStaged rt ctx ix earlier (items ++ [last]) =
      singlesStaged rt ctx ix earlier items ++ [singleStaged rt ctx ix (earlier ++ items) last] := by
  induction items generalizing earlier with
  | nil => simp [singlesStaged]
  | cons item rest ih => simp [singlesStaged, ih]

theorem singlesStaged_ids (rt : Runtime) (ctx : BatchContext) (ix : StoreIndex)
    (earlier items : List BatchAppendItem) :
    (singlesStaged rt ctx ix earlier items).map (fun st => st.receipt.unplaced.eventId) =
      items.map (·.eventId) := by
  induction items generalizing earlier with
  | nil => rfl
  | cons item rest ih =>
      simp only [singlesStaged, List.map_cons, ih]
      congr 1
      exact (signAppendReceipt_keeps ..).1

/-! ### A run of single appends -/

/-- Where a run of single appends stands after the earlier items. -/
structure SinglesAt (rt : Runtime) (ctx : BatchContext) (fenced : Bool) (s : WriterCore)
    (earlier : List BatchAppendItem) (receipts : List AppendReceipt) (t : WriterCore) : Prop where
  serving : Serving fenced t
  allocated : t.index.globalSequence = ctx.firstSeq + earlier.length
  identity : fenceIdentity t fenced = ctx.fence
  heads : ∀ entity lane, headView (t.index.getLatestCommitted entity lane) =
    laneBefore rt ctx.nowMs s.index earlier entity lane
  inserted : t.index.inserted.map (·.unplaced) =
    ((singlesStaged rt ctx s.index [] earlier).map (·.indexEntry default)).reverse ++
      s.index.inserted.map (·.unplaced)
  events : t.disk.events =
    s.disk.events ++ (singlesStaged rt ctx s.index [] earlier).map (·.frame)
  receipts : receipts.map (·.unplaced) =
    (singlesStaged rt ctx s.index [] earlier).map (·.receipt.unplaced)

theorem SinglesAt.ids {fenced : Bool} {s t : WriterCore} {earlier : List BatchAppendItem}
    (h : SinglesAt rt ctx fenced s earlier receipts t) :
    receipts.map (·.eventId) = earlier.map (·.eventId) := by
  have hids : receipts.map (·.eventId) = (receipts.map (·.unplaced)).map (·.eventId) := by
    rw [List.map_map]
    rfl
  rw [hids, h.receipts, List.map_map]
  exact singlesStaged_ids rt ctx s.index [] earlier

/-- The chain heads after one more event are the closed form with one more item. -/
theorem headView_insert {ix ix' : StoreIndex}
    {earlier : List BatchAppendItem} {t : StoreIndex} {pos : DiskPos}
    {st : StagedCommittedEvent} (hst : st.frame = (singleStaged rt ctx ix earlier item).frame)
    (hheads : ∀ entity lane, headView (t.getLatestCommitted entity lane) =
      laneBefore rt ctx.nowMs ix earlier entity lane)
    (hlatest : ix'.latest = st.indexEntry pos :: t.latest) (entity : String) (lane : Nat) :
    headView (ix'.getLatestCommitted entity lane) =
      laneBefore rt ctx.nowMs ix (earlier ++ [item]) entity lane := by
  have hget : ix'.getLatestCommitted entity lane =
      (t.insertInner (st.indexEntry pos)).getLatestCommitted entity lane := by
    unfold StoreIndex.getLatestCommitted
    rw [hlatest]
    rfl
  rw [hget, StoreIndex.getLatestCommitted_insertInner, laneBefore_append]
  have hcoord : (st.indexEntry pos).coord.entity = item.coord.entity := by
    change st.frame.coord.entity = _
    rw [hst]
    rfl
  have hlane : (st.indexEntry pos).dagLane = item.dagLane := by
    change st.frame.dagLane = _
    rw [hst]
    rfl
  rw [hcoord, hlane]
  by_cases hon : item.coord.entity = entity ∧ item.dagLane = lane
  · have honLane : item.onLane entity lane = true := by
      simpa [BatchAppendItem.onLane] using hon
    rw [if_pos hon, if_pos honLane]
    simp only [headView, Option.map_some, Option.getD_some, StagedCommittedEvent.indexEntry, hst]
    simp only [singleStaged, stagedItem, stageItem, laneAfter, hon.1, hon.2]
  · have honLane : ¬item.onLane entity lane = true := by
      simpa [BatchAppendItem.onLane] using hon
    rw [if_neg hon, if_neg honLane]
    exact hheads entity lane

/-- What makes a single append of an item go through: there is a clock for it, and the
event it names as its cause exists. -/
def SingleAccepts (ix : StoreIndex) (earlier : List BatchAppendItem) (item : BatchAppendItem) :
    Prop :=
  itemClock ix earlier item ≤ u32Max ∧ refersBack earlier item = true

/-- Neither a key nor an expected clock. -/
def BatchAppendItem.unguarded (item : BatchAppendItem) : Prop :=
  item.idempotencyKey = none ∧ item.expectedSequence = none

section Singles

variable {cfg : StoreConfig} {fenced : Bool} {s t : WriterCore}

/-- What the append of the next item stages. -/
theorem SinglesAt.stages (h : SinglesAt rt ctx fenced s earlier receipts t)
    (item : BatchAppendItem)
    (hwall : wallMsFromTimestampUs ctx.nowUs = .ok ctx.nowMs) :
    stageAppend rt (item.asRequest ctx.nowUs (itemCausation earlier item))
        ((item.asRequest ctx.nowUs (itemCausation earlier item)).latest t.index) t.segmentId
        t.index.globalSequence (fenceIdentity t fenced) =
      if itemClock s.index earlier item ≤ u32Max then
        .ok (singleStaged rt { ctx with segmentId := t.segmentId } s.index earlier item)
      else .error (.entityClockOverflow item.coord.entity) := by
  rw [h.allocated, h.identity]
  exact stageSingle_eq rt { ctx with segmentId := t.segmentId } hwall
    (h.heads item.coord.entity item.dagLane)

theorem SinglesAt.accepts (h : SinglesAt rt ctx fenced s earlier receipts t)
    (hwall : wallMsFromTimestampUs ctx.nowUs = .ok ctx.nowMs) {items : List BatchAppendItem}
    (hitem : item ∈ items) (hencodable : Encodable cfg rt items) (hunguarded : item.unguarded)
    (haccepts : SingleAccepts s.index earlier item) (rest : List BatchAppendItem) :
    ∃ receipt t', appendSingly cfg rt ctx.nowUs fenced (item :: rest) receipts t =
        appendSingly cfg rt ctx.nowUs fenced rest (receipts ++ [receipt]) t' ∧
      SinglesAt rt ctx fenced s (earlier ++ [item]) (receipts ++ [receipt]) t' := by
  obtain ⟨hclock, hback⟩ := haccepts
  have hresolve : resolveAgainst item (receipts.map (·.eventId)) =
      .ok (itemCausation earlier item) := by
    rw [h.ids]
    rcases resolveAgainst_eq earlier item with ⟨-, hresolve⟩ | ⟨hnot, -⟩
    · exact hresolve
    · rw [hback] at hnot
      cases hnot
  have hstage := h.stages item hwall
  rw [if_pos hclock] at hstage
  have hsame := singleStaged_segment rt ctx s.index earlier item t.segmentId
  have hfits := hencodable.single hitem { ctx with segmentId := t.segmentId } s.index earlier
  obtain ⟨pos, t', hrun, hserved⟩ := handleAppend_serves cfg h.serving hunguarded.2 hunguarded.1
    hstage hfits
  refine ⟨{ (singleStaged rt { ctx with segmentId := t.segmentId } s.index earlier item).receipt with
    diskPos := pos }, t', ?_, ?_⟩
  · conv_lhs => unfold appendSingly
    rw [bind_of_ok (liftExcept_of_ok hresolve t), bind_of_ok hrun]
  · exact {
      serving := hserved.serving
      allocated := by
        rw [hserved.allocated, h.allocated, List.length_append]
        rfl
      identity := hserved.identity.trans h.identity
      heads := headView_insert hsame.frame h.heads hserved.latest
      inserted := by
        rw [hserved.inserted, List.map_cons, h.inserted, singlesStaged_append, List.nil_append,
          hsame.indexEntry]
        simp
      events := by
        rw [hserved.events, h.events, singlesStaged_append, List.nil_append, hsame.frame]
        simp
      receipts := by
        rw [List.map_append, h.receipts, singlesStaged_append, List.nil_append, List.map_append]
        congr 1
        exact congrArg (fun r => [r]) hsame.receipt }

theorem SinglesAt.rejects (h : SinglesAt rt ctx fenced s earlier receipts t) (cfg : StoreConfig)
    (hwall : wallMsFromTimestampUs ctx.nowUs = .ok ctx.nowMs) (hunguarded : item.unguarded)
    (hrejects : ¬SingleAccepts s.index earlier item) (rest : List BatchAppendItem) :
    ∃ e t', appendSingly cfg rt ctx.nowUs fenced (item :: rest) receipts t = .error e t' := by
  unfold appendSingly
  rw [h.ids]
  rcases resolveAgainst_eq earlier item with ⟨hback, hresolve⟩ | ⟨-, e, hresolve⟩
  · have hclock : ¬itemClock s.index earlier item ≤ u32Max := fun hle => hrejects ⟨hle, hback⟩
    have hstage := h.stages item hwall
    rw [if_neg hclock] at hstage
    rw [bind_of_ok (liftExcept_of_ok hresolve t)]
    have hfails : handleAppend cfg rt .none
        (item.asRequest ctx.nowUs (itemCausation earlier item)) fenced t =
        .error (.entityClockOverflow item.coord.entity) t := by
      rw [handleAppend_unguarded cfg rt .none hunguarded.2 hunguarded.1]
      have haccept : acceptAppend rt (item.asRequest ctx.nowUs (itemCausation earlier item))
          ((item.asRequest ctx.nowUs (itemCausation earlier item)).latest t.index) fenced t =
          .error (.entityClockOverflow item.coord.entity) t := by
        unfold acceptAppend
        rw [hstage]
      exact bind_eq_error.mpr (Or.inl (bind_eq_error.mpr (Or.inl haccept)))
    exact ⟨_, t, bind_eq_error.mpr (Or.inl hfails)⟩
  · exact ⟨e, t, bind_eq_error.mpr (Or.inl (liftExcept_of_error hresolve t))⟩

/-- The single appends either all go through, or one of them fails. -/
theorem SinglesAt.run (h : SinglesAt rt ctx fenced s earlier receipts t)
    (hwall : wallMsFromTimestampUs ctx.nowUs = .ok ctx.nowMs)
    {all : List BatchAppendItem} (hencodable : Encodable cfg rt all)
    (items : List BatchAppendItem) (hitems : ∀ item ∈ items, item ∈ all ∧ item.unguarded) :
    (AllSplits (SingleAccepts s.index) earlier items ∧
      ∃ receipts' t', appendSingly cfg rt ctx.nowUs fenced items receipts t = .ok receipts' t' ∧
        SinglesAt rt ctx fenced s (earlier ++ items) receipts' t') ∨
    (¬AllSplits (SingleAccepts s.index) earlier items ∧
      ∃ e t', appendSingly cfg rt ctx.nowUs fenced items receipts t = .error e t') := by
  induction items generalizing earlier receipts t with
  | nil =>
      refine Or.inl ⟨allSplits_nil _ _, receipts, t, rfl, ?_⟩
      rw [List.append_nil]
      exact h
  | cons item rest ih =>
      obtain ⟨hmem, hunguarded⟩ := hitems item List.mem_cons_self
      by_cases haccepts : SingleAccepts s.index earlier item
      · obtain ⟨receipt, t', hstep, hnext⟩ :=
          h.accepts hwall hmem hencodable hunguarded haccepts rest
        have happend : earlier ++ item :: rest = (earlier ++ [item]) ++ rest := by simp
        rw [hstep, allSplits_cons, happend]
        rcases ih hnext (fun i hi => hitems i (List.mem_cons_of_mem _ hi)) with
          ⟨hall, hok⟩ | ⟨hnot, herror⟩
        · exact Or.inl ⟨⟨haccepts, hall⟩, hok⟩
        · exact Or.inr ⟨fun hall => hnot hall.2, herror⟩
      · obtain ⟨e, t', herror⟩ := h.rejects cfg hwall hunguarded haccepts rest
        exact Or.inr ⟨fun hall => haccepts (allSplits_cons.mp hall).1, e, t', herror⟩

end Singles

/-! ### The batch without faults -/

section Batch

variable {cfg : StoreConfig} {nowUs : Int} {fenced : Bool}

theorem writeBatchMarkerFrame_none (cfg : StoreConfig) (hwall : wallMsFromTimestampUs nowUs = .ok nowMs)
    (i batchId : Nat) (kind : EventKind) (n idx : Nat) (allowRotation : Bool) (s : WriterCore)
    (hfits : rt.frameLength (batchMarkerFrame batchId kind n nowUs nowMs) ≤ u32Max) :
    ∃ offset s', writeBatchMarkerFrame cfg rt .none i batchId kind n nowUs idx allowRotation s =
      .ok offset s' := by
  have hrotate : ∃ rotated s₁, rotateIf cfg .none allowRotation s = .ok rotated s₁ := by
    cases allowRotation with
    | false => exact ⟨false, s, rfl⟩
    | true =>
        change ∃ rotated s₁, maybeRotateSegment cfg .none s = _
        unfold maybeRotateSegment
        split
        · exact ⟨_, _, rfl⟩
        · exact ⟨_, _, rfl⟩
  obtain ⟨rotated, s₁, hrotate⟩ := hrotate
  have hwrite : ∃ offset s₂, writeFrame .none i (batchMarkerFrame batchId kind n nowUs nowMs)
      (rt.frameLength (batchMarkerFrame batchId kind n nowUs nowMs)) s₁ = .ok offset s₂ :=
    ⟨_, _, rfl⟩
  obtain ⟨offset, s₂, hwrite⟩ := hwrite
  have hencode : frameEncode rt (Faults.none.encode i) (batchMarkerFrame batchId kind n nowUs nowMs) =
      .ok (rt.frameLength (batchMarkerFrame batchId kind n nowUs nowMs)) := frameEncode_fits hfits rfl
  refine ⟨offset, s₂, ?_⟩
  unfold writeBatchMarkerFrame batchFailedAt
  rw [bind_of_ok (liftExcept_of_ok hwall s),
    bind_of_ok (liftExcept_of_ok hencode s), bind_of_ok hrotate, hwrite]

/-- Every staged item carries the payload of an item and a frame that fits. -/
theorem Encodable.stagedItems (h : Encodable cfg rt items) (ctx : BatchContext) (ix : StoreIndex)
    {rest : List BatchAppendItem} (hrest : ∀ item ∈ rest, item ∈ items)
    (earlier : List BatchAppendItem) :
    ∀ st ∈ stagedItems rt ctx ix earlier rest,
      st.frame.payload.length ≤ u32Max ∧ rt.frameLength st.frame ≤ u32Max := by
  induction rest generalizing earlier with
  | nil =>
      intro st hst
      cases hst
  | cons item rest ih =>
      intro st hst
      have hitem := hrest item List.mem_cons_self
      rcases List.mem_cons.mp hst with rfl | hst
      · exact ⟨h.payloads item hitem, h.staged_le hitem ctx ix earlier⟩
      · exact ih (fun i hi => hrest i (List.mem_cons_of_mem _ hi)) _ st hst

/-- Staging, the envelope and the sync go through exactly when every item is accepted. -/
theorem prepareBatch_none (fenced : Bool) (hwall : wallMsFromTimestampUs nowUs = .ok nowMs)
    (hencodable : Encodable cfg rt items) (hcount : items.length ≤ u32Max) (firstSeq : Nat)
    (s : WriterCore) :
    (AllSplits (BatchAccepts s.index) [] items ∧ ∃ receipts s',
      prepareBatch cfg rt .none nowUs items firstSeq fenced s =
        .ok (stagedItems rt ⟨nowUs, nowMs, firstSeq, s.segmentId, fenceIdentity s fenced⟩ s.index []
          items, receipts) s') ∨
    (¬AllSplits (BatchAccepts s.index) [] items ∧ ∃ e s',
      prepareBatch cfg rt .none nowUs items firstSeq fenced s = .error e s') := by
  have hwallRun : batchFailedAt 0 (liftExcept (wallMsFromTimestampUs nowUs)) s = .ok nowMs s := by
    unfold batchFailedAt
    rw [liftExcept_of_ok hwall]
  have hget : (MonadState.get : WriterM WriterCore) s = .ok s s := rfl
  obtain ⟨w, hplan⟩ := precomputeBatchItems_eq rt
    ⟨nowUs, nowMs, firstSeq, s.segmentId, fenceIdentity s fenced⟩ items
    (allSplits_nil (fun before item => itemClock s.index before item < u32Max) [])
  unfold prepareBatch
  rw [bind_of_ok hwallRun, bind_of_ok hget]
  rcases hplan with ⟨hall, hplan⟩ | ⟨hnot, e, hplan⟩
  · refine Or.inl ⟨hall, ?_⟩
    have hsize : ∀ e : StoreError, ensure (decide (items.length ≤ u32Max)) e = .ok () :=
      fun e => by simp [ensure, hcount]
    have hstaged : precomputeBatchItems rt
        ⟨nowUs, nowMs, firstSeq, s.segmentId, fenceIdentity s fenced⟩ items [] [] s =
        .ok (stagedItems rt ⟨nowUs, nowMs, firstSeq, s.segmentId, fenceIdentity s fenced⟩ s.index []
          items) { s with watermark := w } := hplan
    rw [bind_of_ok hstaged, bind_of_ok (liftExcept_of_ok (hsize _) _)]
    obtain ⟨offset, s₁, hbegin⟩ := writeBatchMarkerFrame_none cfg hwall 0 firstSeq
      .systemBatchBegin items.length 0 true { s with watermark := w } (hencodable.markers ..)
    rw [bind_of_ok hbegin]
    obtain ⟨receipts, s₂, hframes⟩ := writeBatchEventFrames_recording (recording_none items.length)
      (Nat.le_of_eq ((Nat.zero_add _).trans (stagedItems_length ..)))
      (hencodable.stagedItems ⟨nowUs, nowMs, firstSeq, s.segmentId, fenceIdentity s fenced⟩ s.index
        (fun _ h => h) []) s₁
    rw [bind_of_ok hframes]
    obtain ⟨offset', s₃, hcommit⟩ := writeBatchMarkerFrame_none cfg hwall
      (items.length + 1) firstSeq .systemBatchCommit 0 (items.length - 1) false s₂
      (hencodable.markers ..)
    have hsync : ∃ s₄, syncBatch .none items.length s₃ = .ok () s₄ := ⟨_, rfl⟩
    obtain ⟨s₄, hsync⟩ := hsync
    rw [bind_of_ok hcommit, bind_of_ok hsync]
    exact ⟨receipts, s₄, rfl⟩
  · exact Or.inr ⟨hnot, e, _, bind_eq_error.mpr (Or.inl hplan)⟩

theorem PlacedReceipts.unplaced (h : PlacedReceipts staged receipts) :
    receipts.map (·.unplaced) = staged.map (·.receipt.unplaced) := by
  induction h with
  | nil => rfl
  | cons hr hrest ih =>
      rw [List.map_cons, List.map_cons, ih, hr]
      rfl

theorem PlacedReceipts.entries (h : PlacedReceipts staged receipts) :
    (batchEntries staged receipts).map (·.unplaced) = staged.map (·.indexEntry default) := by
  unfold batchEntries
  induction h with
  | nil => rfl
  | cons hr hrest ih =>
      simp only [List.map_cons, List.zip_cons_cons, ih]
      rfl

/-- Keys play no role for a batch without keys. -/
theorem handleAppendBatch_unguarded (flt : Faults) (hne : items ≠ [])
    (hunguarded : ∀ item ∈ items, item.unguarded) (hvalid : validateBatch cfg rt items = .ok ())
    (s : WriterCore) :
    handleAppendBatch cfg rt flt nowUs items fenced s =
      handlePreparedBatch cfg rt flt nowUs items fenced s := by
  have hkeys : ∀ item ∈ items, item.idempotencyKey = none := fun item h => (hunguarded item h).1
  have hempty : items.isEmpty = false := by
    rw [List.isEmpty_eq_false_iff]
    exact hne
  have hcount : (items.filter fun i => i.idempotencyKey.isSome).length = 0 := by
    rw [List.length_eq_zero_iff, List.filter_eq_nil_iff]
    intro item hitem
    simp [hkeys item hitem]
  have hhomogeneous : ∀ e : StoreError, ensure (decide ((items.filter fun i =>
      i.idempotencyKey.isSome).length = 0 ∨ (items.filter fun i =>
      i.idempotencyKey.isSome).length = items.length)) e = .ok () := fun e => by
    simp [ensure, hcount]
  have hpreflight : preflightBatchIdempotency rt s.index items = .ok none := by
    have hall : (items.all fun i => i.idempotencyKey.isNone) = true := by
      rw [List.all_eq_true]
      intro item hitem
      simp [hkeys item hitem]
    simp [preflightBatchIdempotency, hall]
  have hnokeys : items.filterMap (·.idempotencyKey) = [] := by
    rw [List.filterMap_eq_nil_iff]
    exact hkeys
  have hadmit : admitBatchKeys items s = .ok () s := by
    unfold admitBatchKeys
    rw [hnokeys]
    have hresult : s.index.idemp.admitNewKeys [] s.index.globalSequence =
        (.ok (), s.index.idemp) := by
      unfold IdempotencyStore.admitNewKeys IdempotencyStore.countUniqueNew
        IdempotencyStore.admitUniqueNewCount
      dsimp only [List.length_nil]
      split
      · rfl
      · rfl
    rw [hresult]
  have hget : (MonadState.get : WriterM WriterCore) s = .ok s s := rfl
  unfold handleAppendBatch
  rw [bind_of_ok (liftExcept_of_ok hvalid s), hempty]
  simp only [Bool.false_eq_true, if_false]
  rw [bind_of_ok (liftExcept_of_ok (hhomogeneous _) s), bind_of_ok hget,
    bind_of_ok (liftExcept_of_ok hpreflight s)]
  exact bind_of_ok hadmit

/-- What a run observes when it commits the staged events on top of a state. -/
def committedView (s : WriterCore) (staged : List StagedCommittedEvent) :
    List AppendReceipt × List Frame × List IndexEntry :=
  (staged.map (·.receipt.unplaced), s.disk.events ++ staged.map (·.frame),
    (staged.map (·.indexEntry default)).reverse ++ s.index.inserted.map (·.unplaced))

theorem stagedItems_sequences (ctx : BatchContext) (ix : StoreIndex)
    (earlier : List BatchAppendItem) :
    (stagedItems rt ctx ix earlier items).map (·.receipt.unplaced.globalSequence) =
      List.range' (ctx.firstSeq + earlier.length) items.length := by
  induction items generalizing earlier with
  | nil => rfl
  | cons item rest ih =>
      have hrest := ih (earlier ++ [item])
      rw [List.length_append] at hrest
      simp only [stagedItems, List.map_cons, hrest, List.length_cons, List.range'_succ]
      congr 1
      exact (signAppendReceipt_keeps ..).2.1

/-- A fault-free batch of admissible size commits the closed form, or fails. -/
theorem handlePreparedBatch_none {s : WriterCore} (hserving : Serving fenced s)
    (hwall : wallMsFromTimestampUs nowUs = .ok nowMs) (hencodable : Encodable cfg rt items)
    (hcount : items.length ≤ u32Max) :
    (AllSplits (BatchAccepts s.index) [] items ∧
      observe (handlePreparedBatch cfg rt .none nowUs items fenced s) =
        some (committedView s
          (stagedItems rt (batchContext nowUs nowMs fenced s) s.index [] items))) ∨
    (¬AllSplits (BatchAccepts s.index) [] items ∧
      observe (handlePreparedBatch cfg rt .none nowUs items fenced s) = none) := by
  have hreserve : reserveSequences items.length s =
      .ok s.index.globalSequence (reserved items.length s) := rfl
  have haccepts : BatchAccepts (reserved items.length s).index = BatchAccepts s.index :=
    batchAccepts_index rfl
  have hprep := prepareBatch_none fenced hwall hencodable hcount
    s.index.globalSequence (reserved items.length s)
  rw [haccepts] at hprep
  unfold handlePreparedBatch
  rw [bind_of_ok hreserve]
  rcases hprep with ⟨hall, receipts, s₁, hprep⟩ | ⟨hnot, e, s', hprep⟩
  swap
  · rw [bind_eq_error.mpr (Or.inl hprep)]
    exact Or.inr ⟨hnot, rfl⟩
  refine Or.inl ⟨hall, ?_⟩
  have hindex : (reserved items.length s).index.latest = s.index.latest := rfl
  rw [stagedItems_index hindex] at hprep
  have hctx : (⟨nowUs, nowMs, s.index.globalSequence, (reserved items.length s).segmentId,
      fenceIdentity (reserved items.length s) fenced⟩ : BatchContext) =
      batchContext nowUs nowMs fenced s := rfl
  rw [hctx] at hprep
  have hprepared := Triple.ok (@prepareBatch_triple (reserved items.length s) cfg rt .none
    nowUs items s.index.globalSequence fenced) (DiskOnly.refl _) hprep
  obtain ⟨d₁, nowMs', hrotated, -, -, hdisk⟩ := Triple.ok (@prepareBatch_disk
    (reserved items.length s) cfg rt .none nowUs items s.index.globalSequence fenced) rfl hprep
  rw [bind_of_ok hprep]
  dsimp only
  generalize hstaged : stagedItems rt (batchContext nowUs nowMs fenced s) s.index [] items = staged
    at hprepared hdisk ⊢
  rw [bind_of_ok (commitBatch_recording (recording_none staged.length) _ (Nat.le_refl _) receipts s₁)]
  have hannounced : ∀ m ∈ staged.map (·.notification), s.index.globalSequence ≤ m.sequence ∧
      m.sequence < s.index.globalSequence + items.length := by
    intro m hm
    obtain ⟨st, hst, rfl⟩ := List.mem_map.mp hm
    obtain ⟨ctx, hfirst, -, hfrom⟩ := hprepared.stagedFrom
    obtain ⟨-, hlow, hhigh⟩ := hfrom.sequences st hst
    rw [hfirst] at hlow hhigh
    exact ⟨hlow, hhigh⟩
  have hgate : (commitBatchState (items.any fun i => i.idempotencyKey.isSome) staged receipts
      s₁).index.gate = s.index.gate.reserve items.length := by
    unfold commitBatchState
    rw [StoreIndex.insertBatch_gate]
    exact congrArg StoreIndex.gate hprepared.diskOnly.index
  obtain ⟨s₂, hpublish, -, honly, -, -⟩ := publishCommitted_serves hserving hgate
    hprepared.diskOnly.fenceLedger hannounced (batchFrontier staged)
  rw [bind_of_ok hpublish]
  change some (receipts.map (·.unplaced), s₂.disk.events, s₂.index.inserted.map (·.unplaced)) = _
  have hevents : s₂.disk.events = s.disk.events ++ staged.map (·.frame) := by
    have hkinds : ∀ st ∈ staged, st.frame.kind.isBatchMarker = false := by
      rw [← hstaged]
      exact stagedItems_kind _ _ _
    rw [honly.disk]
    change (s₁.disk.collect _).events = _
    rw [events_collect, hdisk, events_sync, events_putAll, hrotated.events,
      eventFrames_envelope hkinds]
    rfl
  have hinserted : s₂.index.inserted.map (·.unplaced) =
      (staged.map (·.indexEntry default)).reverse ++ s.index.inserted.map (·.unplaced) := by
    rw [honly.inserted]
    unfold commitBatchState
    rw [StoreIndex.insertBatch_inserted, List.map_append, List.map_reverse,
      hprepared.placed.entries]
    have hold : s₁.index.inserted = s.index.inserted := by
      rw [hprepared.diskOnly.index]
      rfl
    change _ ++ s₁.index.inserted.map _ = _
    rw [hold]
  rw [hevents, hinserted, hprepared.placed.unplaced]
  rfl

end Batch

/-! ### Comparing the two -/

/-- No run of single appends gets through either: there is one to run, and the clock reads
before the epoch or the fence is not open; or a lane has no clock left, or an item names an
event that does not come before it. -/
def SinglesRefused (nowUs : Int) (items : List BatchAppendItem) (fenced : Bool)
    (s : WriterCore) : Prop :=
  (items ≠ [] ∧ (nowUs < 0 ∨ ¬FenceOpen fenced s)) ∨ ¬AllSplits (SingleAccepts s.index) [] items

/-- The batch is within its limits, no item has flags to lose or the zero id for its cause,
and none takes the last clock of its lane. -/
structure BatchClean (cfg : StoreConfig) (rt : Runtime) (items : List BatchAppendItem)
    (s : WriterCore) : Prop where
  valid : validateBatch cfg rt items = .ok ()
  flags : ∀ item ∈ items, item.flags = 0
  causes : AllSplits (fun earlier item => itemCausation earlier item ≠ some 0) [] items
  clocks : AllSplits (fun earlier item => itemClock s.index earlier item < u32Max) [] items

theorem AllSplits.imp {P Q : List BatchAppendItem → BatchAppendItem → Prop}
    (h : AllSplits P earlier items)
    (himp : ∀ earlier item, P earlier item → Q earlier item) : AllSplits Q earlier items :=
  fun before item after heq => himp _ _ (h before item after heq)

theorem AllSplits.and {P Q : List BatchAppendItem → BatchAppendItem → Prop}
    (hP : AllSplits P earlier items) (hQ : AllSplits Q earlier items) :
    AllSplits (fun earlier item => P earlier item ∧ Q earlier item) earlier items :=
  fun before item after heq => ⟨hP before item after heq, hQ before item after heq⟩

/-- An item without flags and without the zero id for its cause is staged alike. -/
theorem singleStaged_eq {ix : StoreIndex} {earlier : List BatchAppendItem} (hflags : item.flags = 0)
    (hcause : itemCausation earlier item ≠ some 0) :
    singleStaged rt ctx ix earlier item = stagedItem rt ctx ix earlier item := by
  have hfilter : (itemCausation earlier item).filter (· ≠ 0) = itemCausation earlier item := by
    cases hc : itemCausation earlier item with
    | none => rfl
    | some id =>
        have hid : id ≠ 0 := fun h => hcause (by rw [hc, h])
        simp [Option.filter, hid]
  simp only [singleStaged, stagedItem, stageItem, hflags, hfilter]

theorem singlesStaged_eq {ix : StoreIndex} (hflags : ∀ item ∈ items, item.flags = 0)
    (hcauses : AllSplits (fun earlier item => itemCausation earlier item ≠ some 0) earlier items) :
    singlesStaged rt ctx ix earlier items = stagedItems rt ctx ix earlier items := by
  induction items generalizing earlier with
  | nil => rfl
  | cons item rest ih =>
      obtain ⟨hcause, hrest⟩ := allSplits_cons.mp hcauses
      simp only [singlesStaged, stagedItems,
        singleStaged_eq (hflags item List.mem_cons_self) hcause,
        ih (fun i hi => hflags i (List.mem_cons_of_mem _ hi)) hrest]

/-- Equal frames give away that there were no flags and no zero cause. -/
theorem clean_of_frames {ix : StoreIndex} (h : (stagedItems rt ctx ix earlier items).map (·.frame) =
      (singlesStaged rt ctx ix earlier items).map (·.frame)) :
    (∀ item ∈ items, item.flags = 0) ∧
      AllSplits (fun earlier item => itemCausation earlier item ≠ some 0) earlier items := by
  induction items generalizing earlier with
  | nil => exact ⟨fun item h => (by cases h), allSplits_nil _ _⟩
  | cons item rest ih =>
      simp only [stagedItems, singlesStaged, List.map_cons, List.cons.injEq] at h
      obtain ⟨hframe, hrest⟩ := h
      obtain ⟨hflags, hcauses⟩ := ih hrest
      have hflag : item.flags = 0 := (congrArg Frame.flags hframe).symm
      have hcause : itemCausation earlier item =
          (itemCausation earlier item).filter (· ≠ 0) := congrArg Frame.causationId hframe
      refine ⟨?_, allSplits_cons.mpr ⟨?_, hcauses⟩⟩
      · intro i hi
        rcases List.mem_cons.mp hi with rfl | hi
        · exact hflag
        · exact hflags i hi
      · intro hzero
        rw [hzero] at hcause
        cases hcause

theorem validateBatch_nil (cfg : StoreConfig) (rt : Runtime) : validateBatch cfg rt [] = .ok () := by
  simp [validateBatch]

section Compare

variable {cfg : StoreConfig} {nowUs : Int} {fenced : Bool} {s : WriterCore}

theorem singlesAt_start (hserving : Serving fenced s) :
    SinglesAt rt (batchContext nowUs nowMs fenced s) fenced s [] [] s where
  serving := hserving
  allocated := rfl
  identity := rfl
  heads := fun _ _ => rfl
  inserted := by simp [singlesStaged]
  events := by simp [singlesStaged]
  receipts := rfl

/-- What a run of single appends observes. -/
theorem observe_singles (hserving : Serving fenced s)
    (hwall : wallMsFromTimestampUs nowUs = .ok nowMs) (hencodable : Encodable cfg rt items)
    (hunguarded : ∀ item ∈ items, item.unguarded) :
    (AllSplits (SingleAccepts s.index) [] items ∧
      observe (appendSingly cfg rt nowUs fenced items [] s) =
        some (committedView s
          (singlesStaged rt (batchContext nowUs nowMs fenced s) s.index [] items))) ∨
    (¬AllSplits (SingleAccepts s.index) [] items ∧
      observe (appendSingly cfg rt nowUs fenced items [] s) = none) := by
  have hrun := (singlesAt_start hserving).run hwall hencodable items
    (fun item hitem => ⟨hitem, hunguarded item hitem⟩)
  rcases hrun with ⟨hall, receipts, t, hok, hat⟩ | ⟨hnot, e, t, herror⟩
  · refine Or.inl ⟨hall, ?_⟩
    rw [List.nil_append] at hat
    change appendSingly cfg rt nowUs fenced items [] s = _ at hok
    rw [hok]
    change some (receipts.map (·.unplaced), t.disk.events, t.index.inserted.map (·.unplaced)) = _
    rw [hat.receipts, hat.events, hat.inserted]
    rfl
  · refine Or.inr ⟨hnot, ?_⟩
    change appendSingly cfg rt nowUs fenced items [] s = _ at herror
    rw [herror]
    rfl

theorem observe_batch_invalid {e : StoreError} (h : validateBatch cfg rt items = .error e) :
    observe (handleAppendBatch cfg rt .none nowUs items fenced s) = none := by
  unfold handleAppendBatch
  rw [bind_eq_error.mpr (Or.inl (liftExcept_of_error h s))]
  rfl

theorem wallMs_negative (h : nowUs < 0) : ∃ e, wallMsFromTimestampUs nowUs = .error e := by
  unfold wallMsFromTimestampUs
  rw [if_pos h]
  exact ⟨_, rfl⟩

theorem wallMs_nonnegative (h : ¬nowUs < 0) : ∃ nowMs, wallMsFromTimestampUs nowUs = .ok nowMs := by
  unfold wallMsFromTimestampUs
  rw [if_neg h]
  exact ⟨_, rfl⟩

/-- Before the epoch neither path commits anything. -/
theorem observe_batch_negative (hne : items ≠ []) (hunguarded : ∀ item ∈ items, item.unguarded)
    (h : nowUs < 0) : observe (handleAppendBatch cfg rt .none nowUs items fenced s) = none := by
  cases hvalid : validateBatch cfg rt items with
  | error e => exact observe_batch_invalid hvalid
  | ok u =>
      obtain ⟨e, hwall⟩ := wallMs_negative h
      have hreserve : reserveSequences items.length s =
          .ok s.index.globalSequence (reserved items.length s) := rfl
      have hwallRun : batchFailedAt 0 (liftExcept (wallMsFromTimestampUs nowUs))
          (reserved items.length s) = .error (.batchFailed 0 e) (reserved items.length s) := by
        unfold batchFailedAt
        rw [liftExcept_of_error hwall]
      have hprepare : prepareBatch cfg rt .none nowUs items s.index.globalSequence fenced
          (reserved items.length s) = .error (.batchFailed 0 e) (reserved items.length s) :=
        bind_eq_error.mpr (Or.inl hwallRun)
      rw [handleAppendBatch_unguarded .none hne hunguarded hvalid]
      unfold handlePreparedBatch
      rw [bind_of_ok hreserve, bind_eq_error.mpr (Or.inl hprepare)]
      rfl

/-- Single appends stop at the first one, if every append stops. -/
theorem observe_singles_stop (hne : items ≠ []) (hunguarded : ∀ item ∈ items, item.unguarded)
    (hstop : ∀ (req : AppendRequest) latest, req.timestampUs = nowUs →
      ∃ e s', commitAppend cfg rt .none req latest fenced s = .error e s') :
    observe (appendSingly cfg rt nowUs fenced items [] s) = none := by
  cases items with
  | nil => exact absurd rfl hne
  | cons item rest =>
      obtain ⟨hkey, hcas⟩ := hunguarded item List.mem_cons_self
      unfold appendSingly
      cases hresolve : resolveAgainst item (([] : List AppendReceipt).map (·.eventId)) with
      | error e =>
          rw [bind_eq_error.mpr (Or.inl (liftExcept_of_error rfl s))]
          rfl
      | ok causation =>
          obtain ⟨e, s', hfails⟩ := hstop (item.asRequest nowUs causation) _ rfl
          rw [← handleAppend_unguarded cfg rt .none hcas hkey] at hfails
          rw [bind_of_ok (liftExcept_of_ok rfl s), bind_eq_error.mpr (Or.inl hfails)]
          rfl

theorem observe_singles_negative (hne : items ≠ []) (hunguarded : ∀ item ∈ items, item.unguarded)
    (h : nowUs < 0) : observe (appendSingly cfg rt nowUs fenced items [] s) = none := by
  obtain ⟨e, hwall⟩ := wallMs_negative h
  refine observe_singles_stop hne hunguarded fun req latest hnow => ?_
  have hstage : ∃ e, stageAppend rt req latest s.segmentId s.index.globalSequence
      (fenceIdentity s fenced) = .error e := by
    unfold stageAppend
    cases hclock : checkedNextClock (latest.map (·.clock)) req.coord.entity with
    | error e => exact ⟨e, rfl⟩
    | ok clock =>
        rw [hnow, hwall]
        exact ⟨e, rfl⟩
  obtain ⟨e', hstage⟩ := hstage
  have haccept : acceptAppend rt req latest fenced s = .error e' s := by
    unfold acceptAppend
    rw [hstage]
  exact ⟨e', s, bind_eq_error.mpr (Or.inl (bind_eq_error.mpr (Or.inl haccept)))⟩

/-- Without the fence open nothing is published under it. -/
theorem publishCommitted_closed (s₁ : WriterCore) (hclosed : ¬FenceOpen fenced s)
    (hledger : s₁.fenceLedger = s.fenceLedger)
    (hactive : s₁.index.gate.activeFence = s.index.gate.activeFence) (first upTo : Nat)
    (point : HlcPoint) (notifications : List Notification) :
    ∃ e s', publishCommitted fenced first upTo point notifications s₁ = .error e s' := by
  cases fenced with
  | false => exact absurd (fun h => (by cases h)) hclosed
  | true =>
      change ∃ e s', recordFenceProgress first upTo point notifications s₁ = .error e s'
      unfold recordFenceProgress
      rw [hledger]
      cases hfence : s.fenceLedger with
      | none => exact ⟨_, _, rfl⟩
      | some fence =>
          have hother : ¬s₁.index.gate.activeFence = fence.token := by
            intro htoken
            exact hclosed fun _ => ⟨fence, hfence, hactive.symm.trans htoken⟩
          dsimp only
          rw [SequenceGate.noteFenceProgress, if_neg hother]
          exact ⟨_, _, rfl⟩

theorem observe_batch_closed (hne : items ≠ []) (hunguarded : ∀ item ∈ items, item.unguarded)
    (hclosed : ¬FenceOpen fenced s) :
    observe (handleAppendBatch cfg rt .none nowUs items fenced s) = none := by
  cases hvalid : validateBatch cfg rt items with
  | error e => exact observe_batch_invalid hvalid
  | ok u =>
      rw [handleAppendBatch_unguarded .none hne hunguarded hvalid]
      rcases handlePreparedBatch_cases cfg rt .none nowUs items fenced s with
        ⟨e, s', hrun, -⟩ | ⟨staged, receipts, s₁, hprepared, hrun⟩
      · rw [hrun]
        rfl
      · have hgate : (commitBatchState (batchKeyed items) staged receipts s₁).index.gate =
            s.index.gate.reserve items.length := by
          unfold commitBatchState
          rw [StoreIndex.insertBatch_gate]
          exact congrArg StoreIndex.gate hprepared.diskOnly.index
        obtain ⟨e, s', hfails⟩ := publishCommitted_closed
          (commitBatchState (batchKeyed items) staged receipts s₁) hclosed
          hprepared.diskOnly.fenceLedger (by rw [hgate]; rfl) s.index.globalSequence
          (s.index.globalSequence + items.length) (batchFrontier staged)
          (staged.map (·.notification))
        rw [hrun]
        unfold publishBatch
        rw [bind_eq_error.mpr (Or.inl hfails)]
        rfl

theorem observe_singles_closed (hne : items ≠ []) (hunguarded : ∀ item ∈ items, item.unguarded)
    (hclosed : ¬FenceOpen fenced s) :
    observe (appendSingly cfg rt nowUs fenced items [] s) = none := by
  refine observe_singles_stop hne hunguarded fun req latest _ => ?_
  rcases commitAppend_cases cfg rt .none req latest fenced s with
    ⟨e, s', hrun, -⟩ | ⟨st, pos, s₁, hprepared, hrun⟩
  · exact ⟨e, s', hrun⟩
  · have hgate : (commitState req.idempotencyKey.isSome st pos s₁).index.gate =
        s.index.gate.reserve 1 := by
      change s₁.index.gate.reserve 1 = _
      rw [hprepared.diskOnly.index]
    obtain ⟨e, s', hfails⟩ := publishCommitted_closed
      (commitState req.idempotencyKey.isSome st pos s₁) hclosed hprepared.diskOnly.fenceLedger
      (by rw [hgate]; rfl) st.globalSequence (st.globalSequence + 1) st.point [st.notification]
    rw [hrun]
    unfold publishAppend
    exact ⟨e, s', bind_eq_error.mpr (Or.inl hfails)⟩

/-- A batch that goes through hands out consecutive sequences. -/
theorem batch_sequences {s' : WriterCore} (hok : observe (.ok receipts s') = some (committedView s
      (stagedItems rt (batchContext nowUs nowMs fenced s) s.index [] items))) :
    receipts.map (·.globalSequence) = List.range' s.index.globalSequence items.length := by
  have hreceipts := congrArg Prod.fst (Option.some.inj hok)
  have hsequences := congrArg (List.map AppendReceipt.globalSequence) hreceipts
  simp only [committedView, List.map_map] at hsequences
  have hclosed := @stagedItems_sequences items rt (batchContext nowUs nowMs fenced s) s.index []
  exact hsequences.trans hclosed

/-- What a batch observes. -/
theorem observe_batch {nowMs : Nat} (hserving : Serving fenced s)
    (hwall : wallMsFromTimestampUs nowUs = .ok nowMs) (hencodable : Encodable cfg rt items)
    (hne : items ≠ []) (hunguarded : ∀ item ∈ items, item.unguarded) :
    ((validateBatch cfg rt items = .ok () ∧ AllSplits (BatchAccepts s.index) [] items) ∧
      observe (handleAppendBatch cfg rt .none nowUs items fenced s) =
        some (committedView s
          (stagedItems rt (batchContext nowUs nowMs fenced s) s.index [] items))) ∨
    (¬(validateBatch cfg rt items = .ok () ∧ AllSplits (BatchAccepts s.index) [] items) ∧
      observe (handleAppendBatch cfg rt .none nowUs items fenced s) = none) := by
  cases hvalid : validateBatch cfg rt items with
  | error e => exact Or.inr ⟨fun h => (by cases h.1), observe_batch_invalid hvalid⟩
  | ok u =>
      have hcount : items.length ≤ u32Max :=
        Nat.le_trans (validateBatch_size hvalid) hencodable.batchSize
      rw [handleAppendBatch_unguarded .none hne hunguarded hvalid]
      rcases handlePreparedBatch_none hserving hwall hencodable hcount with
        ⟨hall, hview⟩ | ⟨hnot, hnone⟩
      · exact Or.inl ⟨⟨rfl, hall⟩, hview⟩
      · exact Or.inr ⟨fun h => hnot h.2, hnone⟩

/-- An empty batch commits nothing, and so do no single appends. -/
theorem batchMatchesSingles_nil : BatchMatchesSingles cfg rt nowUs [] fenced s := by
  have hrun : handleAppendBatch cfg rt .none nowUs [] fenced s = .ok [] s := by
    simp only [handleAppendBatch]
    rw [bind_of_ok (liftExcept_of_ok (validateBatch_nil cfg rt) s)]
    rfl
  constructor
  · rw [hrun]
    rfl
  · intro receipts s' hok
    rw [hrun] at hok
    cases hok
    rfl

theorem batchClean_nil : BatchClean cfg rt [] s where
  valid := validateBatch_nil cfg rt
  flags := fun item h => (by cases h)
  causes := allSplits_nil _ _
  clocks := allSplits_nil _ _

/-- Where nothing is committed on either side there is nothing to compare. -/
theorem batchMatchesSingles_of_none
    (hbatch : observe (handleAppendBatch cfg rt .none nowUs items fenced s) = none)
    (hsingles : observe (appendSingly cfg rt nowUs fenced items [] s) = none) :
    BatchMatchesSingles cfg rt nowUs items fenced s := by
  constructor
  · rw [hbatch, hsingles]
  · intro receipts s' hok
    rw [hok] at hbatch
    cases hbatch

theorem BatchAccepts.single {earlier : List BatchAppendItem}
    (h : BatchAccepts s.index earlier item) : SingleAccepts s.index earlier item :=
  ⟨Nat.le_of_lt h.1, h.2⟩

/-- From the epoch on, single appends that get through are matched by a clean batch only. -/
theorem batchMatchesSingles_iff_clean (hserving : Serving fenced s)
    (hwall : wallMsFromTimestampUs nowUs = .ok nowMs) (hencodable : Encodable cfg rt items)
    (hne : items ≠ []) (hunguarded : ∀ item ∈ items, item.unguarded)
    (hsingles : AllSplits (SingleAccepts s.index) [] items) :
    BatchMatchesSingles cfg rt nowUs items fenced s ↔ BatchClean cfg rt items s := by
  have hbatch := @observe_batch items rt cfg nowUs fenced s nowMs hserving hwall hencodable hne
    hunguarded
  have hobserved : observe (appendSingly cfg rt nowUs fenced items [] s) =
      some (committedView s
        (singlesStaged rt (batchContext nowUs nowMs fenced s) s.index [] items)) := by
    rcases observe_singles hserving hwall hencodable hunguarded with ⟨-, hview⟩ | ⟨hnot, -⟩
    · exact hview
    · exact absurd hsingles hnot
  constructor
  · intro hmatches
    have hsame := hmatches.1
    rw [hobserved] at hsame
    rcases hbatch with ⟨⟨hvalid, haccepts⟩, hview⟩ | ⟨-, hnone⟩
    · rw [hview] at hsame
      have hevents := congrArg (fun view => view.2.1) (Option.some.inj hsame)
      obtain ⟨hflags, hcauses⟩ := clean_of_frames (List.append_cancel_left hevents)
      exact {
        valid := hvalid
        flags := hflags
        causes := hcauses
        clocks := haccepts.imp fun earlier item h => h.1 }
    · rw [hnone] at hsame
      cases hsame
  · intro hclean
    have haccepts : AllSplits (BatchAccepts s.index) [] items :=
      (hclean.clocks.and hsingles).imp fun earlier item h => ⟨h.1, h.2.2⟩
    rcases hbatch with ⟨-, hview⟩ | ⟨hnot, -⟩
    · constructor
      · rw [hview, hobserved, singlesStaged_eq hclean.flags hclean.causes]
      · intro receipts s' hok
        rw [hok] at hview
        exact batch_sequences hview
    · exact absurd ⟨hclean.valid, haccepts⟩ hnot

end Compare

/-- A fault-free batch of items without keys and expected clocks matches its items appended
one by one exactly when the single appends cannot get through either, or the batch is within
its limits, no item has flags or the zero id for its cause, and none takes the last clock of
its lane. -/
theorem batch_matches_singles_iff (cfg : StoreConfig) (rt : Runtime) (nowUs : Int)
    (items : List BatchAppendItem) (fenced : Bool) (s : WriterCore)
    (hbounded : Bounded s.index.gate) (hencodable : Encodable cfg rt items)
    (hunguarded : ∀ item ∈ items, item.unguarded) :
    BatchMatchesSingles cfg rt nowUs items fenced s ↔
      SinglesRefused nowUs items fenced s ∨ BatchClean cfg rt items s := by
  by_cases hempty : items = []
  · subst hempty
    exact ⟨fun _ => Or.inr batchClean_nil, fun _ => batchMatchesSingles_nil⟩
  by_cases hnegative : nowUs < 0
  · have hnone := batchMatchesSingles_of_none
      (@observe_batch_negative items rt cfg nowUs fenced s hempty hunguarded hnegative)
      (observe_singles_negative hempty hunguarded hnegative)
    exact ⟨fun _ => Or.inl (Or.inl ⟨hempty, Or.inl hnegative⟩), fun _ => hnone⟩
  by_cases hopen : FenceOpen fenced s
  swap
  · have hnone := batchMatchesSingles_of_none
      (@observe_batch_closed items rt cfg nowUs fenced s hempty hunguarded hopen)
      (observe_singles_closed hempty hunguarded hopen)
    exact ⟨fun _ => Or.inl (Or.inl ⟨hempty, Or.inr hopen⟩), fun _ => hnone⟩
  have hserving : Serving fenced s := ⟨hbounded, hopen⟩
  obtain ⟨nowMs, hwall⟩ := wallMs_nonnegative hnegative
  by_cases hsingles : AllSplits (SingleAccepts s.index) [] items
  · rw [batchMatchesSingles_iff_clean hserving hwall hencodable hempty hunguarded hsingles]
    constructor
    · exact Or.inr
    · rintro ((⟨-, hneg | hclosed⟩ | hnot) | hclean)
      · exact absurd hneg hnegative
      · exact absurd hopen hclosed
      · exact absurd hsingles hnot
      · exact hclean
  · -- what the batch accepts a single append accepts too, so neither side gets through
    constructor
    · intro _
      exact Or.inl (Or.inr hsingles)
    · intro _
      apply batchMatchesSingles_of_none
      · rcases observe_batch hserving hwall hencodable hempty hunguarded with
          ⟨⟨-, haccepts⟩, -⟩ | ⟨-, hnone⟩
        · exact absurd (haccepts.imp fun _ _ h => h.single) hsingles
        · exact hnone
      · rcases observe_singles hserving hwall hencodable hunguarded with ⟨hall, -⟩ | ⟨-, hnone⟩
        · exact absurd hall hsingles
        · exact hnone

/-! ### A small store -/

/-- The encoder of the small store keeps the frames of small items short. -/
theorem encodable_small {items : List BatchAppendItem}
    (h : ∀ item ∈ items, item.payload.length ≤ 4096) :
    Encodable .small .unsigned items where
  batchSize := by decide
  payloads := fun item hitem => Nat.le_trans (h item hitem) (by decide)
  frames := by
    intro item hitem f hpayload _ _
    change 160 + f.payload.length ≤ u32Max
    have hshort := h item hitem
    have hmax : u32Max = 4294967295 := rfl
    rw [hpayload]
    omega
  markers := by
    intro firstSeq kind n nowUs nowMs
    change 160 + (batchMarkerFrame firstSeq kind n nowUs nowMs).payload.length ≤ u32Max
    simp [batchMarkerFrame, u32Max]

/-- An item with a flag set. -/
def flaggedItem : BatchAppendItem :=
  { plainItem "order:1" 7 8 with flags := 1 }

/-- A batch of one flagged item stores the event without its flag. -/
theorem flagged_batch_differs :
    ¬BatchMatchesSingles .small .unsigned 0 [flaggedItem] false (freshStore .small .unsigned) := by
  intro h
  have hdiffer : ¬observe (handleAppendBatch .small .unsigned .none 0 [flaggedItem] false
      (freshStore .small .unsigned)) =
    observe (appendSingly .small .unsigned 0 false [flaggedItem] []
      (freshStore .small .unsigned)) := by decide +kernel
  exact hdiffer h.1

/-- A store after its first open. -/
def openedOnce : StoreState :=
  run (lifecycleStep .small .unsigned) .blank [.reopen ⟨1, [], 0, .none⟩]

def twoItems : List BatchAppendItem :=
  [plainItem "order:1" 7 8, plainItem "order:1" 9 8]

theorem two_items_match :
    ∃ core, openedOnce.core? = some core ∧
      BatchMatchesSingles .small .unsigned 0 twoItems false core := by
  have hsome : openedOnce.core?.isSome = true := by decide +kernel
  have hopen : openedOnce.core? = some (openedOnce.core?.get hsome) := (Option.some_get hsome).symm
  have hclocks : ∀ core ∈ openedOnce.core?,
      itemClock core.index [] (plainItem "order:1" 7 8) < u32Max ∧
      itemClock core.index [plainItem "order:1" 7 8] (plainItem "order:1" 9 8) < u32Max := by
    decide +kernel
  have hclean : BatchClean .small .unsigned twoItems (openedOnce.core?.get hsome) := {
    valid := by decide +kernel
    flags := by decide
    causes := allSplits_cons.mpr ⟨by decide, allSplits_cons.mpr ⟨by decide, allSplits_nil _ _⟩⟩
    clocks := allSplits_cons.mpr ⟨(hclocks _ hopen).1,
      allSplits_cons.mpr ⟨(hclocks _ hopen).2, allSplits_nil _ _⟩⟩ }
  refine ⟨_, hopen, ?_⟩
  exact (batch_matches_singles_iff .small .unsigned 0 twoItems false _
    (bounded_of_life .small .unsigned _ hopen) (encodable_small (by decide))
    (by simp [twoItems, BatchAppendItem.unguarded, plainItem])).mpr (Or.inr hclean)

end Batpak.Store
