/-
Module: Batpak.Proofs.PayloadVersion
Purpose: The schema version of a typed payload from the call to the decode seam.
Trusted boundary: none
Main exports: handleAppendBatch_frames, decodeTyped_upcasts
-/
import Batpak.Proofs.DiskEffects
import Batpak.Store.TypedWrite

namespace Batpak.Store

open Batpak.Util

variable {f : Frame} {rt : Runtime} {α : Type} {kind : EventKind} {payload : Except String Bytes}
  {ctx : SubmitContext} {coord : Coordinate} {command : WriterCommand} {items : List RawBatchItem}

/-! ### What a write adds to the files -/

/-- Every complete frame of every file, in the order written. -/
def DiskView.frames (d : DiskView) : List Frame :=
  d.segments.flatMap Segment.frames

/-- The complete frames among chunks. -/
def chunkFrames (cs : List Chunk) : List Frame :=
  cs.filterMap fun
    | .frame f _ => some f
    | .torn _ => none

theorem mem_chunkFrames {cs : List Chunk} :
    f ∈ chunkFrames cs ↔ ∃ length, Chunk.frame f length ∈ cs := by
  rw [chunkFrames, List.mem_filterMap]
  constructor
  · rintro ⟨c, hc, hf⟩
    cases c with
    | frame g length =>
        obtain rfl := Option.some.inj hf
        exact ⟨length, hc⟩
    | torn length => cases hf
  · rintro ⟨length, hc⟩
    exact ⟨.frame f length, hc, rfl⟩

theorem frames_put (d : DiskView) (c : Chunk) : (d.put c).frames = d.frames ++ chunkFrames [c] := by
  simp only [DiskView.frames, DiskView.segments, DiskView.put, List.flatMap_append,
    List.flatMap_singleton, List.append_assoc, Segment.frames, List.filterMap_append]
  rfl

theorem frames_putAll (d : DiskView) (cs : List Chunk) :
    (d.putAll cs).frames = d.frames ++ chunkFrames cs := by
  induction cs generalizing d with
  | nil => simp [chunkFrames]
  | cons c rest ih =>
      rw [putAll_cons, ih, frames_put, List.append_assoc, chunkFrames, chunkFrames,
        ← List.filterMap_append]
      rfl

theorem frames_collect (d : DiskView) (rows : List SidxEntry) : (d.collect rows).frames = d.frames :=
  rfl

theorem frames_sync (d : DiskView) : d.sync.frames = d.frames := by
  simp [DiskView.frames, DiskView.segments, DiskView.sync]
  rfl

theorem frames_mayRotate {cfg : StoreConfig} {d d' : DiskView} (h : MayRotate cfg d d') :
    d'.frames = d.frames := by
  cases h with
  | stay => rfl
  | rotate footerFails full =>
      have hfresh : (Segment.create (d.segmentId + 1) cfg.headerBytes).frames = [] := rfl
      cases footerFails <;>
        simp [DiskView.frames, DiskView.segments, DiskView.rotate, hfresh] <;>
        rfl

/-- The files of `d'` are those of `d` with frames behind them, each as stated. -/
def FramesAdded (d d' : DiskView) (P : Frame → Prop) : Prop :=
  ∃ added, d'.frames = d.frames ++ added ∧ ∀ f ∈ added, P f

theorem FramesAdded.refl (d : DiskView) (P : Frame → Prop) : FramesAdded d d P :=
  ⟨[], by simp, by simp⟩

theorem FramesAdded.mono {d d' : DiskView} {P Q : Frame → Prop} (h : FramesAdded d d' P)
    (hpq : ∀ f, P f → Q f) : FramesAdded d d' Q := by
  obtain ⟨added, hframes, hadded⟩ := h
  exact ⟨added, hframes, fun f hf => hpq f (hadded f hf)⟩

/-- An append adds the event it staged, or nothing. -/
theorem handleAppend_frames (cfg : StoreConfig) (rt : Runtime) (flt : Faults)
    (req : AppendRequest) (fenced : Bool) (s : WriterCore) :
    FramesAdded s.disk (finalState (handleAppend cfg rt flt req fenced s)).disk
      fun f => ∃ st, StagedAppend rt req fenced s st ∧ f = st.frame := by
  cases handleAppend_effect cfg rt flt req fenced s with
  | failed disk inserted latest =>
      obtain ⟨d₁, left, hrotate, hleft, hdisk⟩ := disk
      rw [FramesAdded, hdisk, frames_putAll, frames_mayRotate hrotate]
      refine ⟨_, rfl, fun f hf => ?_⟩
      obtain ⟨length, hf⟩ := mem_chunkFrames.mp hf
      cases hleft with
      | nothing => cases hf
      | torn k tears => simp at hf
      | orphan st hst =>
          have hchunk := List.mem_singleton.mp hf
          injection hchunk with hframe
          exact ⟨st, hst, hframe⟩
  | committed st pos staged disk inserted latest =>
      obtain ⟨d₁, hrotate, -, hdisk⟩ := disk
      rw [FramesAdded, hdisk, frames_collect, frames_put, frames_mayRotate hrotate]
      refine ⟨_, rfl, fun f hf => ?_⟩
      obtain ⟨length, hf⟩ := mem_chunkFrames.mp hf
      have hchunk := List.mem_singleton.mp hf
      injection hchunk with hframe
      exact ⟨st, staged, hframe⟩

theorem stagedAppend_version {req : AppendRequest} {fenced : Bool} {s : WriterCore}
    {st : StagedCommittedEvent} (h : StagedAppend rt req fenced s st) :
    st.frame.payloadVersion = req.payloadVersion ∧ st.frame.kind = req.kind := by
  obtain ⟨clock, -, h⟩ := bindOk_iff.mp h
  obtain ⟨rawMs, -, h⟩ := bindOk_iff.mp h
  obtain rfl := Except.ok.inj h
  exact ⟨rfl, rfl⟩

/-- A chunk of an envelope is a marker or the frame of an item. -/
theorem mem_envelope {batchId : Nat} {nowUs : Int} {nowMs : Nat}
    {staged : List StagedCommittedEvent} {length : Nat}
    (h : Chunk.frame f length ∈ envelope rt batchId nowUs nowMs staged) :
    f.kind.isBatchMarker = true ∨ ∃ st ∈ staged, f = st.frame := by
  simp only [envelope, List.mem_cons, List.mem_append, List.mem_map, List.not_mem_nil, or_false,
    frameChunk, Chunk.frame.injEq] at h
  rcases h with ⟨rfl, -⟩ | ⟨st, hst, rfl, -⟩ | ⟨rfl, -⟩
  · exact .inl rfl
  · exact .inr ⟨st, hst, rfl⟩
  · exact .inl rfl

theorem mem_of_leftover {flt : Faults} {whole left : List Chunk} (h : Leftover flt whole left)
    {length : Nat} (hf : Chunk.frame f length ∈ left) : Chunk.frame f length ∈ whole := by
  cases h with
  | part n => exact List.mem_of_mem_take hf
  | torn n k more tears =>
      rcases List.mem_append.mp hf with hf | hf
      · exact List.mem_of_mem_take hf
      · simp at hf

/-- A batch adds markers and events it staged. -/
theorem handleAppendBatch_frames (cfg : StoreConfig) (rt : Runtime) (flt : Faults) (nowUs : Int)
    (items : List BatchAppendItem) (fenced : Bool) (s : WriterCore) :
    FramesAdded s.disk (finalState (handleAppendBatch cfg rt flt nowUs items fenced s)).disk
      fun f => f.kind.isBatchMarker = true ∨
        ∃ staged, BatchStaged rt items s.index.globalSequence fenced s staged ∧
          ∃ st ∈ staged, f = st.frame := by
  have hwhole : ∀ {staged : List StagedCommittedEvent} {places : List DiskPos} {d₁ : DiskView},
      BatchStaged rt items s.index.globalSequence fenced s staged →
      WrittenBatchDisk cfg rt s.index.globalSequence nowUs s.disk staged places d₁ →
      FramesAdded s.disk d₁ fun f => f.kind.isBatchMarker = true ∨
        ∃ staged, BatchStaged rt items s.index.globalSequence fenced s staged ∧
          ∃ st ∈ staged, f = st.frame := by
    rintro staged places d₁ hstaged ⟨d₂, nowMs, hrotate, -, -, rfl⟩
    rw [FramesAdded, frames_sync, frames_putAll, frames_mayRotate hrotate]
    refine ⟨_, rfl, fun f hf => ?_⟩
    obtain ⟨length, hf⟩ := mem_chunkFrames.mp hf
    exact (mem_envelope hf).imp_right fun hst => ⟨staged, hstaged, hst⟩
  cases handleAppendBatch_effect cfg rt flt nowUs items fenced s with
  | failed d₁ left rotated leftover disk inserted latest =>
      rw [FramesAdded, disk, frames_putAll, frames_mayRotate rotated]
      refine ⟨_, rfl, fun f hf => ?_⟩
      obtain ⟨length, hf⟩ := mem_chunkFrames.mp hf
      cases leftover with
      | nothing => cases hf
      | part staged nowMs left hstaged hleft =>
          exact (mem_envelope (mem_of_leftover hleft hf)).imp_right fun hst =>
            ⟨staged, hstaged, hst⟩
  | unrecorded staged receipts d₁ n batch written disk inserted latest =>
      rw [FramesAdded, disk, frames_collect]
      exact hwhole batch written
  | committed staged receipts d₁ nonempty batch written disk inserted latest =>
      rw [FramesAdded, disk, frames_collect]
      exact hwhole batch written

/-- No item of a batch is given a payload version. -/
theorem stagedFrom_version {ctx : BatchContext} {ix : StoreIndex} {prev : List StagedCommittedEvent}
    {items : List BatchAppendItem} {new : List StagedCommittedEvent}
    (h : StagedFrom rt ctx ix prev items new) :
    ∀ st ∈ new, st.frame.payloadVersion = 0 ∧ ∃ item ∈ items, st.frame.kind = item.kind := by
  induction h with
  | nil prev => simp
  | cons prev item rest state causation more lane bounded tail ih =>
      intro st hst
      rcases List.mem_cons.mp hst with rfl | hst
      · exact ⟨rfl, item, List.mem_cons_self, rfl⟩
      · obtain ⟨hversion, item', hitem', hkind⟩ := ih st hst
        exact ⟨hversion, item', List.mem_cons_of_mem _ hitem', hkind⟩

/-! ### Commands -/

theorem respondWith_disk (respond : Nat) (mk : Except StoreError α → Reply) (m : WriterM α)
    (s : WriterCore) :
    (respondWith respond mk m s).disk = (finalState (m s)).disk := by
  rw [respondWith]
  cases m s <;> rfl

theorem underFence_disk (token respond : Nat) (mk : Except StoreError α → Reply)
    (pending : α → PendingFenceResponse) (m : WriterM α) (s : WriterCore) :
    (underFence token respond mk pending m s).2.disk = s.disk ∨
      (underFence token respond mk pending m s).2.disk = (finalState (m s)).disk := by
  rw [underFence]
  split
  · right
    cases m s <;> rfl
  · exact .inl rfl

/-- A marker, or an event of the kind and the version. -/
def StoredAs (version : Nat) (kind : EventKind) (f : Frame) : Prop :=
  f.kind.isBatchMarker = true ∨ (f.payloadVersion = version ∧ f.kind = kind)

/-- Whatever the state of the store, every event the command puts into a file is of the kind
and the version. -/
def CommandStores (version : Nat) (kind : EventKind) (command : WriterCommand) : Prop :=
  ∀ cfg rt flt phase s,
    FramesAdded s.disk (executeCommand cfg rt flt phase command s).2.disk (StoredAs version kind)

theorem append_stores (req : AppendRequest) (token : Option Nat) (respond : Nat) :
    CommandStores req.payloadVersion req.kind (match token with
      | some token => .fenceAppend token req respond
      | none => .append req respond) := by
  intro cfg rt flt phase s
  have hevent : ∀ fenced, FramesAdded s.disk
      (finalState (handleAppend cfg rt flt req fenced s)).disk
      (StoredAs req.payloadVersion req.kind) := by
    intro fenced
    apply (handleAppend_frames cfg rt flt req fenced s).mono
    rintro f ⟨st, hst, rfl⟩
    exact .inr (stagedAppend_version hst)
  cases token with
  | none =>
      rw [executeCommand, respondWith_disk]
      exact hevent false
  | some token =>
      rcases underFence_disk token respond .receipt (.single respond)
        (handleAppend cfg rt flt req true) s with hdisk | hdisk
      · simp only [executeCommand, hdisk]
        exact .refl s.disk _
      · simp only [executeCommand, hdisk]
        exact hevent true

theorem appendBatch_stores {items : List BatchAppendItem} (hkind : ∀ item ∈ items, item.kind = kind)
    (token : Option Nat) (nowUs : Int) (respond : Nat) :
    CommandStores 0 kind (match token with
      | some token => .fenceAppendBatch token nowUs items respond
      | none => .appendBatch nowUs items respond) := by
  intro cfg rt flt phase s
  have hevent : ∀ fenced, FramesAdded s.disk
      (finalState (handleAppendBatch cfg rt flt nowUs items fenced s)).disk (StoredAs 0 kind) := by
    intro fenced
    apply (handleAppendBatch_frames cfg rt flt nowUs items fenced s).mono
    rintro f (hmarker | ⟨staged, ⟨ctx, -, -, hstaged⟩, st, hst, rfl⟩)
    · exact .inl hmarker
    · obtain ⟨hversion, item, hitem, hitemKind⟩ := stagedFrom_version hstaged st hst
      exact .inr ⟨hversion, hitemKind.trans (hkind item hitem)⟩
  cases token with
  | none =>
      rw [executeCommand, respondWith_disk]
      exact hevent false
  | some token =>
      rcases underFence_disk token respond .receipts (.batch respond)
        (handleAppendBatch cfg rt flt nowUs items true) s with hdisk | hdisk
      · simp only [executeCommand, hdisk]
        exact .refl s.disk _
      · simp only [executeCommand, hdisk]
        exact hevent true

/-! ### Submissions -/

theorem buildEvent_version {sub : AppendSubmission} {nowUs : Int} {event : Event Bytes}
    (h : sub.buildEvent payload kind nowUs = .ok event) :
    event.header.payloadVersion = sub.payloadVersion := by
  cases payload with
  | error e => cases h
  | ok bytes =>
      obtain ⟨-, h⟩ := ifError_ok_iff.mp h
      obtain rfl := Except.ok.inj h
      by_cases hzero : sub.payloadVersion = 0
      · by_cases hflags : sub.options.flags = 0 <;> simp [hzero, hflags]
      · simp [hzero]

theorem submitPrepared_stores {sub : AppendSubmission}
    (h : submitPrepared ctx coord kind payload sub = .ok command) :
    CommandStores sub.payloadVersion kind command := by
  rw [submitPrepared] at h
  by_cases hreserved : kind.isReserved = true
  · rw [dif_pos hreserved] at h
    cases h
  · rw [dif_neg hreserved] at h
    obtain ⟨⟨⟩, -, h⟩ := bindOk_iff.mp h
    obtain ⟨⟨⟩, -, h⟩ := bindOk_iff.mp h
    obtain ⟨event, hevent, h⟩ := bindOk_iff.mp h
    obtain ⟨-, h⟩ := ifError_ok_iff.mp h
    obtain rfl := Except.ok.inj h
    rw [← buildEvent_version hevent]
    exact append_stores _ sub.fenceToken ctx.respond

theorem submitBatchWithFenceImpl_stores {token : Option Nat}
    (hkind : ∀ item ∈ items, item.kind = kind)
    (h : submitBatchWithFenceImpl ctx items token = .ok command) :
    CommandStores 0 kind command := by
  obtain ⟨accepted, haccepted, h⟩ := bindOk_iff.mp h
  have hkinds : ∀ item ∈ accepted, item.kind = kind := by
    intro item hitem
    obtain ⟨⟨raw, idx⟩, hraw, hitem⟩ := mem_of_mapM_ok haccepted hitem
    dsimp only [RawBatchItem.accept] at hitem
    split at hitem
    · cases hitem
    · obtain rfl := Except.ok.inj hitem
      exact hkind raw (List.fst_mem_of_mem_zipIdx hraw)
  cases token with
  | none =>
      obtain rfl := Except.ok.inj h
      exact appendBatch_stores hkinds none ctx.nowUs ctx.respond
  | some token =>
      obtain rfl := Except.ok.inj h
      exact appendBatch_stores hkinds (some token) ctx.nowUs ctx.respond

theorem submitBatch_stores (hkind : ∀ item ∈ items, item.kind = kind)
    (h : submitBatch ctx items = .ok command) : CommandStores 0 kind command := by
  obtain ⟨-, h⟩ := ifError_ok_iff.mp h
  obtain ⟨⟨⟩, -, h⟩ := bindOk_iff.mp h
  exact submitBatchWithFenceImpl_stores hkind h

section Typed

variable {α : Type} {T : EventPayload α} {ctx : SubmitContext}

theorem submitStamped_stores {payload : α} {submission : AppendSubmission}
    (h : submitStamped T ctx coord payload submission = .ok (.queued command)) :
    CommandStores T.payloadVersion T.kind command := by
  obtain ⟨⟨⟩, -, h⟩ := bindOk_iff.mp h
  obtain ⟨queued, hqueued, h⟩ := bindOk_iff.mp h
  obtain rfl := Submitted.queued.inj (Except.ok.inj h)
  exact submitPrepared_stores hqueued

theorem trySubmit_queued {submit : Except SubmitError Submitted}
    (h : trySubmit ctx submit = .ok (.queued command)) : submit = .ok (.queued command) := by
  rw [trySubmit] at h
  by_cases hfence : ctx.publicFenceActive = true
  · rw [if_pos hfence] at h
    cases h
  · rw [if_neg hfence] at h
    by_cases hpressure : ctx.pressureRetryThreshold ≤ ctx.queued
    · rw [if_pos hpressure] at h
      cases h
    · rwa [if_neg hpressure] at h

theorem submitUnstamped_stores {payload : α} {submission : AppendSubmission}
    (hzero : submission.payloadVersion = 0)
    (h : submitUnstamped T ctx coord payload submission = .ok (.queued command)) :
    CommandStores 0 T.kind command := by
  obtain ⟨queued, hqueued, h⟩ := bindOk_iff.mp h
  obtain rfl := Submitted.queued.inj (Except.ok.inj h)
  rw [← hzero]
  exact submitPrepared_stores hqueued

theorem queuedBatch_queued {result : Except SubmitError WriterCommand}
    (h : queuedBatch result = .ok (.queued command)) : result = .ok command := by
  cases result with
  | error e => cases h
  | ok queued =>
      obtain rfl := Submitted.queued.inj (Except.ok.inj h)
      rfl

theorem new_kind {options : AppendOptions} {causation : CausationRef} {item : RawBatchItem}
    (h : RawBatchItem.new coord kind payload options causation = .ok item) : item.kind = kind := by
  cases payload with
  | error e => cases h
  | ok bytes =>
      obtain rfl := Except.ok.inj h
      rfl

theorem kind_of_typedItems {items : List (TypedItem α)} {built : List RawBatchItem}
    (h : TypedCall.typedItems T items = .ok built) : ∀ item ∈ built, item.kind = T.kind := by
  intro item hitem
  obtain ⟨typed, -, hnew⟩ := mem_of_mapM_ok h hitem
  exact new_kind hnew

theorem kind_of_stagedItems {items : List (TypedItem α)} {built : List RawBatchItem}
    (h : TypedCall.stagedItems T items = .ok built) : ∀ item ∈ built, item.kind = T.kind := by
  intro item hitem
  obtain ⟨typed, -, hnew⟩ := mem_of_mapM_ok h hitem
  exact new_kind hnew

theorem flush_stores {fence : Option Nat} (hkind : ∀ item ∈ items, item.kind = kind)
    (h : TypedCall.flush ctx fence items = .ok command) : CommandStores 0 kind command := by
  cases fence with
  | none => exact submitBatch_stores hkind h
  | some token =>
      have hfenced : submitBatchWithFenceImpl ctx items (some token) = .ok command := h
      exact submitBatchWithFenceImpl_stores hkind hfenced

/-- The calls that stamp the version store it; the others store none. -/
theorem submit_stores {call : TypedCall α} (h : call.submit T ctx = .ok (.queued command)) :
    CommandStores (if call.stamps then T.payloadVersion else 0) T.kind command := by
  cases call with
  | appendTyped coord payload => exact submitStamped_stores h
  | appendTypedWithOptions coord payload options => exact submitStamped_stores h
  | submitTyped coord payload => exact submitStamped_stores h
  | trySubmitTyped coord payload => exact submitStamped_stores (trySubmit_queued h)
  | appendReactionTyped coord payload correlationId causationId => exact submitStamped_stores h
  | submitReactionTyped coord payload correlationId causationId => exact submitStamped_stores h
  | trySubmitReactionTyped coord payload correlationId causationId =>
      exact submitStamped_stores (trySubmit_queued h)
  | applyTransition coord payload => exact submitStamped_stores h
  | fenceSubmitTyped token coord payload => exact submitUnstamped_stores rfl h
  | fenceSubmitReactionTyped token coord payload correlationId causationId =>
      exact submitUnstamped_stores rfl h
  | batch fence items =>
      obtain ⟨built, hbuilt, h⟩ := bindOk_iff.mp h
      exact flush_stores (kind_of_typedItems hbuilt) (queuedBatch_queued h)
  | outbox fence items =>
      obtain ⟨built, hbuilt, h⟩ := bindOk_iff.mp h
      exact flush_stores (kind_of_stagedItems hbuilt) (queuedBatch_queued h)
  | reactions correlationId causationId items =>
      obtain ⟨built, hbuilt, h⟩ := bindOk_iff.mp h
      apply submitBatch_stores _ (queuedBatch_queued h)
      intro item hitem
      obtain ⟨typed, htyped, rfl⟩ := List.mem_map.mp hitem
      exact kind_of_typedItems hbuilt typed htyped

end Typed

/-! ### Reading with a later version -/

/-- An event of an earlier, stamped version goes through the chain in either lane. -/
theorem decodeTyped_upcasts {P : Type} [DecodeTyped P] (registry : List UpcastRegistration)
    {T : EventPayload α} (event : Event P) (hkind : event.header.kind = T.kind)
    (hstamped : event.header.payloadVersion ≠ 0)
    (holder : event.header.payloadVersion < T.payloadVersion) :
    decodeTyped registry T event =
      decodeOlder registry T event.header.kind event.header.payloadVersion
        (DecodeTyped.toValue event.payload) := by
  have hcurrent : ¬ (event.header.payloadVersion = T.payloadVersion ∨
      event.header.payloadVersion = 0) := by omega
  rw [decodeTyped, if_neg (not_not.mpr hkind), decodeLane, decodeVersioned, if_neg hcurrent,
    if_neg (Nat.lt_asymm holder)]

/-- The frame of a value of `T` carries the version of `T`, and a later version of the type
lifts it through the chain from there, whichever lane reads it. -/
structure KeepsVersion {α : Type} (T : EventPayload α) (f : Frame) : Prop where
  stamped : f.payloadVersion = T.payloadVersion
  rawLane : ∀ {β : Type} (later : EventPayload β), later.kind = T.kind →
    T.payloadVersion < later.payloadVersion → ∀ registry,
    decodeTyped registry later (FramePayload.ofFrame f).event =
      decodeOlder registry later T.kind T.payloadVersion (valueFromMsgpack f.payload)
  jsonLane : ∀ {β : Type} (later : EventPayload β), later.kind = T.kind →
    T.payloadVersion < later.payloadVersion → ∀ registry value,
    decodeTyped registry later
        (⟨(FramePayload.ofFrame f).event.header, value, none⟩ : Event Json) =
      decodeOlder registry later T.kind T.payloadVersion (valueFromJson value)

theorem keepsVersion_of_stamped {T : EventPayload α} (hversion : 1 ≤ T.payloadVersion)
    (hkind : f.kind = T.kind) (hstamped : f.payloadVersion = T.payloadVersion) :
    KeepsVersion T f where
  stamped := hstamped
  rawLane := by
    intro β later hlater holder registry
    have hframe : (FramePayload.ofFrame f).event.header.payloadVersion = T.payloadVersion :=
      hstamped
    have hheader : (FramePayload.ofFrame f).event.header.kind = T.kind := hkind
    rw [decodeTyped_upcasts registry _ (hheader.trans hlater.symm) (by omega) (by omega), hframe,
      hheader]
    rfl
  jsonLane := by
    intro β later hlater holder registry value
    have hframe : (FramePayload.ofFrame f).event.header.payloadVersion = T.payloadVersion :=
      hstamped
    have hheader : (FramePayload.ofFrame f).event.header.kind = T.kind := hkind
    rw [decodeTyped_upcasts registry (⟨(FramePayload.ofFrame f).event.header, value, none⟩)
      (hheader.trans hlater.symm) (by simp only [hframe]; omega) (by simpa only [hframe])]
    simp only [hframe, hheader]
    rfl

/-- Every event the accepted call puts into a file keeps its version exactly when the call is
one of those that stamp it. -/
theorem typed_call_keeps_version_iff {α : Type} {T : EventPayload α} {ctx : SubmitContext}
    {call : TypedCall α} {command : WriterCommand} (hversion : 1 ≤ T.payloadVersion)
    (hsubmit : call.submit T ctx = .ok (.queued command)) (cfg : StoreConfig) (rt : Runtime)
    (flt : Faults) (phase : WriterLoopPhase) (s : WriterCore) {added : List Frame}
    (hadded : (executeCommand cfg rt flt phase command s).2.disk.frames = s.disk.frames ++ added)
    {f : Frame} (hf : f ∈ added) (hevent : f.kind.isBatchMarker = false) :
    KeepsVersion T f ↔ call.stamps = true := by
  obtain ⟨added', hadded', hstores⟩ := submit_stores hsubmit cfg rt flt phase s
  obtain rfl := List.append_cancel_left (hadded.symm.trans hadded')
  rcases hstores f hf with hmarker | ⟨hstamped, hkind⟩
  · rw [hevent] at hmarker
    cases hmarker
  · constructor
    · intro hkeeps
      by_contra hcall
      rw [if_neg hcall] at hstamped
      have := hkeeps.stamped
      omega
    · intro hcall
      rw [if_pos hcall] at hstamped
      exact keepsVersion_of_stamped hversion hkind hstamped

/-! ### An amount that changes its unit -/

/-- An amount in whole units. -/
def amountV1 : EventPayload Nat where
  kind := ⟨0x1001⟩
  payloadVersion := 1
  toBytes amount := .ok [UInt8.ofNat amount]
  fromBytes
    | [b] => .ok b.toNat
    | _ => .error "one byte expected"
  fromJson
    | .int n => .ok n.toNat
    | _ => .error "a number expected"
  fromValue
    | .int n => .ok n.toNat
    | _ => .error "an integer expected"

/-- The same amount in thousandths. -/
def amountV2 : EventPayload Nat :=
  { amountV1 with payloadVersion := 2 }

def amountSteps : List UpcastRegistration :=
  [{ kindBits := 0x1001
     fromVersion := 1
     step := fun
      | .int n => .ok (.int (1000 * n))
      | _ => .error "an integer expected" }]

def amountContext : SubmitContext where
  rt := .unsigned
  publicFenceActive := false
  requireIdempotencyKeys := false
  singleAppendMaxBytes := 1024
  queued := 0
  pressureRetryThreshold := 8
  nowUs := 0
  generatedId := (· + 1)
  respond := 0

def amountAppend : TypedCall Nat :=
  .appendTyped ⟨"account", "main"⟩ 5

def amountBatch : TypedCall Nat :=
  .batch none [⟨⟨"account", "main"⟩, 5, {}, .none⟩]

/-- The writer of an empty store. -/
def freshWriter : WriterCore :=
  .spawn .small (.new .unbounded .warn) [] none 1

/-- The files of an empty store after the command. -/
def filesAfter (command : WriterCommand) : DiskView :=
  (executeCommand .small .unsigned .none .main command freshWriter).2.disk

/-- The events the call leaves there. -/
def amountFrames (call : TypedCall Nat) : List Frame :=
  match call.submit amountV1 amountContext with
  | .ok (.queued command) => (filesAfter command).frames.filter fun f => !f.kind.isBatchMarker
  | _ => []

theorem typed_call_keeps_version_appended :
    ∃ command, amountAppend.submit amountV1 amountContext = .ok (.queued command) ∧
      ∃ f ∈ (filesAfter command).frames,
        KeepsVersion amountV1 f ↔ amountAppend.stamps = true := by
  refine ⟨_, rfl, (filesAfter _).frames.head (by decide +kernel), List.head_mem _, ?_⟩
  exact @typed_call_keeps_version_iff Nat amountV1 amountContext amountAppend _ (by decide) rfl
    .small .unsigned .none .main freshWriter _ (List.nil_append _).symm _ (List.head_mem _)
    (by decide +kernel)

/-- Five units written by `append_typed` are read as five thousand thousandths; written as a
typed batch item they are read as five. -/
theorem typed_batch_loses_version :
    (amountFrames amountAppend).map (fun f => (f.payloadVersion,
        (decodeTyped amountSteps amountV2 (FramePayload.ofFrame f).event).toOption)) =
      [(1, some 5000)] ∧
    (amountFrames amountBatch).map (fun f => (f.payloadVersion,
        (decodeTyped amountSteps amountV2 (FramePayload.ofFrame f).event).toOption)) =
      [(0, some 5)] ∧
    ¬ ∀ f ∈ amountFrames amountBatch, KeepsVersion amountV1 f := by
  refine ⟨by decide +kernel, by decide +kernel, ?_⟩
  intro hkeeps
  have hversions : (amountFrames amountBatch).map (·.payloadVersion) = [0] := by decide +kernel
  have hzero : 0 ∈ (amountFrames amountBatch).map (·.payloadVersion) := by simp [hversions]
  obtain ⟨f, hf, hstored⟩ := List.mem_map.mp hzero
  exact absurd ((hkeeps f hf).stamped.symm.trans hstored) (by decide)

end Batpak.Store
