/-
Module: Batpak.Proofs.BatchEffects
Purpose: What a batch append can do to the state: nothing but burned sequences before its commit
  point, and exactly its staged items at it.
Trusted boundary: none
Main exports: BatchCases, handleAppendBatch_cases
-/
import Batpak.Proofs.WriterEffects

namespace Batpak.Store

open Batpak.Util

/-! ### Staging -/

/-- The running lane states after the given items have been staged. -/
def batchStates (staged : List StagedCommittedEvent) : BatchEntityStates :=
  staged.reverse.map fun st =>
    ((st.frame.coord.entity, st.frame.dagLane),
      ⟨st.frame.hashChain.eventHash, st.frame.clock + 1, st.frame.wallMs⟩)

/-- `StagedFrom rt ctx ix prev items new`: with `prev` already staged, the items stage as
`new`, each one on the lane state the earlier ones left. -/
inductive StagedFrom (rt : Runtime) (ctx : BatchContext) (ix : StoreIndex) :
    List StagedCommittedEvent → List BatchAppendItem → List StagedCommittedEvent → Prop where
  | nil (prev : List StagedCommittedEvent) : StagedFrom rt ctx ix prev [] []
  | cons (prev : List StagedCommittedEvent) (item : BatchAppendItem)
      (rest : List BatchAppendItem) (state : BatchEntityState) (causation : Option Nat)
      (more : List StagedCommittedEvent)
      (lane : entityState ix (batchStates prev) item = .ok state)
      (bounded : state.nextClock < u32Max)
      (tail : StagedFrom rt ctx ix
        (prev ++ [stageItem rt ctx prev.length item state causation]) rest more) :
      StagedFrom rt ctx ix prev (item :: rest)
        (stageItem rt ctx prev.length item state causation :: more)

/-- The items of a staged batch take the reserved sequences in order, under one fence. -/
theorem StagedFrom.sequences {rt : Runtime} {ctx : BatchContext} {ix : StoreIndex}
    {prev : List StagedCommittedEvent} {items : List BatchAppendItem}
    {new : List StagedCommittedEvent} (h : StagedFrom rt ctx ix prev items new) :
    ∀ st ∈ new, st.frame.provenance = some ⟨st.globalSequence, ctx.fence⟩ ∧
      ctx.firstSeq + prev.length ≤ st.globalSequence ∧
      st.globalSequence < ctx.firstSeq + prev.length + items.length := by
  induction h with
  | nil prev =>
      intro st hst
      cases hst
  | cons prev item rest state causation more lane bounded tail ih =>
      intro st hst
      rcases List.mem_cons.mp hst with rfl | hst
      · refine ⟨rfl, ?_, ?_⟩
        · exact Nat.le_refl _
        · simp only [stageItem, List.length_cons]
          omega
      · obtain ⟨hprov, hlow, hhigh⟩ := ih st hst
        simp only [List.length_append, List.length_cons, List.length_nil] at hlow hhigh ⊢
        exact ⟨hprov, by omega, by omega⟩

/-- The receipt of every staged item reports what its frame stores. -/
theorem StagedFrom.reported {rt : Runtime} {ctx : BatchContext} {ix : StoreIndex}
    {prev : List StagedCommittedEvent} {items : List BatchAppendItem}
    {new : List StagedCommittedEvent} (h : StagedFrom rt ctx ix prev items new) :
    ∀ st ∈ new, st.Reported := by
  induction h with
  | nil prev => exact List.forall_mem_nil _
  | cons prev item rest state causation more lane bounded tail ih =>
      exact List.forall_mem_cons.mpr ⟨stageItem_reported ctx _ item state causation, ih⟩

theorem batchStates_append (prev : List StagedCommittedEvent) (st : StagedCommittedEvent) :
    batchStates (prev ++ [st]) =
      ((st.frame.coord.entity, st.frame.dagLane),
        ⟨st.frame.hashChain.eventHash, st.frame.clock + 1, st.frame.wallMs⟩) ::
          batchStates prev := by
  simp [batchStates]

theorem checkedNextClock_some {clock next : Nat} {entity : String}
    (h : checkedNextClock (some clock) entity = .ok next) : clock < u32Max ∧ next = clock + 1 := by
  unfold checkedNextClock at h
  simp only at h
  split at h
  · rename_i hlt
    exact ⟨hlt, by cases h; rfl⟩
  · cases h

/-- The staged list the batch computes is the one `StagedFrom` describes. -/
theorem precomputeBatchItems_triple {s₀ : WriterCore} (rt : Runtime) (ctx : BatchContext)
    (items : List BatchAppendItem) (computed : List StagedCommittedEvent) :
    Triple (DiskOnly s₀) (precomputeBatchItems rt ctx items computed (batchStates computed))
      (fun staged s => DiskOnly s₀ s ∧
        ∃ new, staged = computed ++ new ∧ StagedFrom rt ctx s₀.index computed items new)
      (DiskOnly s₀) := by
  induction items generalizing computed with
  | nil => exact Triple.pure fun s hs => ⟨hs, [], by simp, .nil computed⟩
  | cons item rest ih =>
      unfold precomputeBatchItems
      refine Triple.bind (Q := fun t s => t = s ∧ DiskOnly s₀ s)
        (Triple.get fun s hs => ⟨rfl, hs⟩) fun t => ?_
      rintro s ⟨rfl, hs⟩
      have hindex := hs.index
      refine (Triple.bind (liftExcept_triple _) fun state => ?_ : Triple (DiskOnly s₀) _ _ _) t hs
      rintro s ⟨hstate, hs⟩
      rw [hindex] at hstate
      refine (Triple.bind (liftExcept_keeps _) fun causation => ?_ :
        Triple (DiskOnly s₀) _ _ _) s hs
      refine Triple.bind (liftExcept_triple _) fun next => ?_
      rintro s ⟨hnext, hs⟩
      obtain ⟨hbounded, rfl⟩ := checkedNextClock_some hnext
      have hadvance : ∀ p : HlcPoint, Keeps (DiskOnly s₀) (modify fun s =>
          { s with watermark := s.watermark.advanceAcceptedOnLane item.dagLane p } :
          WriterM PUnit) :=
        fun p => Triple.modify fun s hs => hs.trans ⟨rfl, rfl, rfl, rfl, rfl, rfl⟩
      refine (Triple.bind (hadvance _) fun _ => ?_ : Triple (DiskOnly s₀) _ _ _) s hs
      have hstep := ih (computed ++ [stageItem rt ctx computed.length item state causation])
      rw [batchStates_append] at hstep
      refine Triple.onReturn hstep ?_
      rintro staged s ⟨hs, new, rfl, hnew⟩
      refine ⟨hs, _ :: new, ?_, .cons computed item rest state causation new hstate hbounded hnew⟩
      simp

/-! ### Writing the envelope -/

/-- Receipts of written items: the staged receipts with their disk positions filled in. -/
def PlacedReceipts (staged : List StagedCommittedEvent) (receipts : List AppendReceipt) : Prop :=
  List.Forall₂ (fun st r => r = { st.receipt with diskPos := r.diskPos }) staged receipts

theorem writeBatchEventFrame_triple {s₀ : WriterCore} (rt : Runtime) (flt : Faults) (idx : Nat)
    (st : StagedCommittedEvent) :
    Triple (DiskOnly s₀) (writeBatchEventFrame rt flt idx st)
      (fun r s => DiskOnly s₀ s ∧ r = { st.receipt with diskPos := r.diskPos })
      (DiskOnly s₀) := by
  refine batchFailedAt_triple idx ?_
  refine Triple.bind (liftExcept_keeps _) fun _ => ?_
  refine Triple.bind (liftExcept_keeps _) fun length => ?_
  refine Triple.bind (writeStaged_diskOnly flt (idx + 1) st length) fun offset => ?_
  refine Triple.bind (liftExcept_keeps _) fun _ => ?_
  refine Triple.read fun t => ?_
  exact Triple.pure fun s hs => ⟨hs, rfl⟩

theorem writeBatchEventFrames_triple {s₀ : WriterCore} (rt : Runtime) (flt : Faults) (idx : Nat)
    (staged : List StagedCommittedEvent) :
    Triple (DiskOnly s₀) (writeBatchEventFrames rt flt idx staged)
      (fun rs s => DiskOnly s₀ s ∧ PlacedReceipts staged rs) (DiskOnly s₀) := by
  induction staged generalizing idx with
  | nil => exact Triple.pure fun s hs => ⟨hs, .nil⟩
  | cons st rest ih =>
      refine Triple.bind (writeBatchEventFrame_triple rt flt idx st) fun r => ?_
      rintro s ⟨hs, hr⟩
      refine (Triple.bind (ih (idx + 1)) fun rs => ?_ : Triple (DiskOnly s₀) _ _ _) s hs
      exact Triple.pure fun s hs => ⟨hs.1, .cons hr hs.2⟩

/-- What a successful preparation of a batch has established. -/
structure BatchPrepared (rt : Runtime) (items : List BatchAppendItem) (firstSeq : Nat)
    (fenced : Bool) (s₀ : WriterCore) (staged : List StagedCommittedEvent)
    (receipts : List AppendReceipt) (s : WriterCore) : Prop where
  diskOnly : DiskOnly s₀ s
  stagedFrom : ∃ ctx : BatchContext, ctx.firstSeq = firstSeq ∧
    ctx.fence = fenceIdentity s₀ fenced ∧ StagedFrom rt ctx s₀.index [] items staged
  placed : PlacedReceipts staged receipts

theorem prepareBatch_triple {s₀ : WriterCore} (cfg : StoreConfig) (rt : Runtime) (flt : Faults)
    (nowUs : Int) (items : List BatchAppendItem) (firstSeq : Nat) (fenced : Bool) :
    Triple (DiskOnly s₀) (prepareBatch cfg rt flt nowUs items firstSeq fenced)
      (fun p s => BatchPrepared rt items firstSeq fenced s₀ p.1 p.2 s) (DiskOnly s₀) := by
  have hmarker : ∀ i kind size item allow, Keeps (DiskOnly s₀)
      (writeBatchMarkerFrame cfg rt flt i firstSeq kind size nowUs item allow) :=
    fun i kind size item allow => writeBatchMarkerFrame_keeps cfg rt flt i firstSeq kind size nowUs
      item allow (maybeRotateSegment_diskOnly cfg flt) fun f length => writeFrame_diskOnly flt i f
      length
  refine Triple.bind (batchFailedAt_triple 0 (liftExcept_keeps _)) fun nowMs => ?_
  refine Triple.bind (Q := fun t s => t = s ∧ DiskOnly s₀ s)
    (Triple.get fun s hs => ⟨rfl, hs⟩) fun t => ?_
  rintro s ⟨rfl, hs⟩
  have hfence := fenceIdentity_congr hs.fenceLedger fenced
  refine (Triple.bind (precomputeBatchItems_triple rt
    ⟨nowUs, nowMs, firstSeq, t.segmentId, fenceIdentity t fenced⟩ items []) fun staged => ?_ :
    Triple (DiskOnly s₀) _ _ _) t hs
  rintro s ⟨hs, new, hnew, hstaged⟩
  obtain rfl : staged = new := hnew
  refine (Triple.bind (liftExcept_keeps _) fun _ => ?_ : Triple (DiskOnly s₀) _ _ _) s hs
  refine Triple.bind (hmarker _ _ _ _ _) fun _ => ?_
  refine Triple.bind (writeBatchEventFrames_triple rt flt 0 staged) fun receipts => ?_
  rintro s ⟨hs, hplaced⟩
  refine (Triple.bind (hmarker _ _ _ _ _) fun _ => ?_ : Triple (DiskOnly s₀) _ _ _) s hs
  refine Triple.bind (syncBatch_triple (syncActiveSegment_diskOnly flt) _) fun _ => ?_
  exact Triple.pure fun s hs => ⟨hs, ⟨_, rfl, hfence, hstaged⟩, hplaced⟩

/-! ### The commit point -/

/-- Index entries of a written batch. -/
def batchEntries (staged : List StagedCommittedEvent) (receipts : List AppendReceipt) :
    List IndexEntry :=
  (staged.zip (receipts.map (·.diskPos))).map fun p => p.1.indexEntry p.2

/-- SIDX rows of a written batch. -/
def batchRows (staged : List StagedCommittedEvent) (receipts : List AppendReceipt) :
    List SidxEntry :=
  (staged.zip (receipts.map (·.diskPos))).map fun p => p.1.sidxEntry p.2

/-- The state right after the commit point of a batch. -/
def commitBatchState (keyed : Bool) (staged : List StagedCommittedEvent)
    (receipts : List AppendReceipt) (s : WriterCore) : WriterCore :=
  { s with
    sidxCollector := s.sidxCollector ++ batchRows staged receipts
    index := ({ s.index with
      idemp := recordBatchIdempotency s.index.idemp keyed
        (batchEntries staged receipts) } : StoreIndex).insertBatch (batchEntries staged receipts) }

theorem recordSidxEntries_cases (flt : Faults) (idx : Nat) (rows : List SidxEntry)
    (s : WriterCore) :
    (∃ e s', recordSidxEntries flt idx rows s = .error e s' ∧ DiskOnly s s') ∨
      recordSidxEntries flt idx rows s =
        .ok () { s with sidxCollector := s.sidxCollector ++ rows } := by
  induction rows generalizing idx s with
  | nil => exact .inr (by simp [recordSidxEntries, Pure.pure, EStateM.pure])
  | cons row rest ih =>
      unfold recordSidxEntries
      cases hfault : flt.sidxRecord idx with
      | true =>
          refine .inl ⟨.internerExhausted, s, bind_eq_error.mpr (.inl rfl), DiskOnly.refl s⟩
      | false =>
          have hensure : liftExcept (ensure (!false) .internerExhausted) s = .ok () s := rfl
          rw [bind_of_ok hensure]
          have hmodify : (modify fun s : WriterCore =>
              { s with sidxCollector := s.sidxCollector ++ [row] } : WriterM PUnit) s =
              .ok ⟨⟩ { s with sidxCollector := s.sidxCollector ++ [row] } := rfl
          rw [bind_of_ok hmodify]
          rcases ih (idx + 1) { s with sidxCollector := s.sidxCollector ++ [row] } with
            ⟨e, s', he, hs'⟩ | hok
          · have hrow : DiskOnly s { s with sidxCollector := s.sidxCollector ++ [row] } :=
              ⟨rfl, rfl, rfl, rfl, rfl, rfl⟩
            exact .inl ⟨e, s', he, hrow.trans hs'⟩
          · right
            rw [hok]
            simp

theorem commitBatch_cases (flt : Faults) (keyed : Bool) (staged : List StagedCommittedEvent)
    (receipts : List AppendReceipt) (s : WriterCore) :
    (∃ e s', commitBatch flt keyed staged receipts s = .error e s' ∧ DiskOnly s s') ∨
      commitBatch flt keyed staged receipts s =
        .ok () (commitBatchState keyed staged receipts s) := by
  unfold commitBatch
  cases hintern : flt.intern with
  | true => exact .inl ⟨.internerExhausted, s, bind_eq_error.mpr (.inl rfl), DiskOnly.refl s⟩
  | false =>
      have hensure : liftExcept (ensure (!false) .internerExhausted) s = .ok () s := rfl
      rw [bind_of_ok hensure]
      rcases recordSidxEntries_cases flt 0 (batchRows staged receipts) s with ⟨e, s', he, hs'⟩ | hok
      · exact .inl ⟨e, s', bind_eq_error.mpr (.inl he), hs'⟩
      · right
        exact bind_of_ok hok

/-- The tail of a batch append after its commit point. -/
def publishBatch (fenced : Bool) (firstSeq count : Nat) (staged : List StagedCommittedEvent)
    (receipts : List AppendReceipt) : WriterM (List AppendReceipt) := do
  publishCommitted fenced firstSeq (firstSeq + count) (batchFrontier staged)
    (staged.map (·.notification))
  return receipts

def batchKeyed (items : List BatchAppendItem) : Bool :=
  items.any fun i => i.idempotencyKey.isSome

/-- Everything a batch append can do. -/
inductive BatchCases (rt : Runtime) (items : List BatchAppendItem) (fenced : Bool)
    (s : WriterCore) : EStateM.Result StoreError WriterCore (List AppendReceipt) → Prop where
  | failed (e : StoreError) (n : Nat) (s' : WriterCore) (quiet : Uncommitted n s s') :
      BatchCases rt items fenced s (.error e s')
  | replayed (receipts : List AppendReceipt)
      (known : items = [] ∧ receipts = [] ∨
        preflightBatchIdempotency rt s.index items = .ok (some receipts)) :
      BatchCases rt items fenced s (.ok receipts s)
  | committed (staged : List StagedCommittedEvent) (receipts : List AppendReceipt)
      (s₀ s₁ : WriterCore)
      (nonempty : items ≠ [])
      (fresh : preflightBatchIdempotency rt s.index items = .ok none)
      (homogeneous : ∀ i ∈ items, batchKeyed items = i.idempotencyKey.isSome)
      (quiet : Uncommitted items.length s s₀)
      (prepared : BatchPrepared rt items s.index.globalSequence fenced s₀ staged receipts s₁) :
      BatchCases rt items fenced s
        (publishBatch fenced s.index.globalSequence items.length staged receipts
          (commitBatchState (batchKeyed items) staged receipts s₁))

theorem admitNewKeys_idemp (idemp : IdempotencyStore) (keys : List Nat) (frontier : Nat) :
    (idemp.admitNewKeys keys frontier).2 = idemp ∨
      (idemp.admitNewKeys keys frontier).2 = idemp.evict frontier := by
  unfold IdempotencyStore.admitNewKeys IdempotencyStore.admitUniqueNewCount
  grind

/-- The state after a batch has reserved its sequences. -/
def reserved (n : Nat) (s : WriterCore) : WriterCore :=
  { s with index := { s.index with gate := s.index.gate.reserve n } }

theorem Uncommitted.reserve {s s' : WriterCore} (h : Uncommitted 0 s s') (n : Nat) :
    Uncommitted n s (reserved n s') where
  inserted := h.inserted
  latest := h.latest
  gate := by
    change s'.index.gate.reserve n = s.index.gate.reserve n
    rw [h.gate]
    rfl
  idemp := h.idemp
  fenceLedger := h.fenceLedger
  hiddenRanges := h.hiddenRanges
  replies := h.replies
  fenceCount := h.fenceCount
  committedFences := h.committedFences

theorem handlePreparedBatch_cases (cfg : StoreConfig) (rt : Runtime) (flt : Faults) (nowUs : Int)
    (items : List BatchAppendItem) (fenced : Bool) (s : WriterCore) :
    (∃ e s', handlePreparedBatch cfg rt flt nowUs items fenced s = .error e s' ∧
      DiskOnly (reserved items.length s) s') ∨
    ∃ staged receipts s₁,
      BatchPrepared rt items s.index.globalSequence fenced (reserved items.length s) staged
        receipts s₁ ∧
      handlePreparedBatch cfg rt flt nowUs items fenced s =
        publishBatch fenced s.index.globalSequence items.length staged receipts
          (commitBatchState (batchKeyed items) staged receipts s₁) := by
  have hreserve : reserveSequences items.length s =
      .ok s.index.globalSequence (reserved items.length s) := rfl
  unfold handlePreparedBatch
  rw [bind_of_ok hreserve]
  have hprep := @prepareBatch_triple (reserved items.length s) cfg rt flt nowUs items
    s.index.globalSequence fenced _ (DiskOnly.refl _)
  cases hp : prepareBatch cfg rt flt nowUs items s.index.globalSequence fenced
      (reserved items.length s) with
  | error e s' =>
      rw [hp] at hprep
      exact .inl ⟨e, s', bind_eq_error.mpr (.inl hp), hprep⟩
  | ok p s₁ =>
      obtain ⟨staged, receipts⟩ := p
      rw [hp] at hprep
      rw [bind_of_ok hp]
      rcases commitBatch_cases flt (batchKeyed items) staged receipts s₁ with ⟨e, s', he, hs'⟩ | hok
      · exact .inl ⟨e, s', bind_eq_error.mpr (.inl he), hprep.diskOnly.trans hs'⟩
      · exact .inr ⟨staged, receipts, s₁, hprep, bind_of_ok hok⟩

/-- All keyed or all unkeyed: the check on the counts makes the batch homogeneous. -/
theorem homogeneous_of_keyedCount (items : List BatchAppendItem)
    (h : (items.filter fun i => i.idempotencyKey.isSome).length = 0 ∨
      (items.filter fun i => i.idempotencyKey.isSome).length = items.length) :
    ∀ i ∈ items, batchKeyed items = i.idempotencyKey.isSome := by
  intro i hi
  unfold batchKeyed
  rcases h with h | h
  · have hnone := List.filter_eq_nil_iff.mp (List.length_eq_zero_iff.mp h)
    have hi' : i.idempotencyKey.isSome = false := by simpa using hnone i hi
    rw [hi', List.any_eq_false]
    exact hnone
  · have hall := List.length_filter_eq_length_iff.mp h
    rw [hall i hi, List.any_eq_true]
    exact ⟨i, hi, hall i hi⟩

theorem admitBatchKeys_quiet (items : List BatchAppendItem) (s : WriterCore) :
    Uncommitted 0 s (finalState (admitBatchKeys items s)) ∧
      (finalState (admitBatchKeys items s)).disk = s.disk := by
  have hkeys := admitNewKeys_idemp s.index.idemp (items.filterMap (·.idempotencyKey))
    s.index.globalSequence
  unfold admitBatchKeys
  cases hres : s.index.idemp.admitNewKeys (items.filterMap (·.idempotencyKey))
      s.index.globalSequence with
  | mk r idemp =>
      rw [hres] at hkeys
      cases r with
      | ok u => exact ⟨⟨rfl, rfl, rfl, hkeys, rfl, rfl, rfl, rfl, rfl⟩, rfl⟩
      | error e => exact ⟨⟨rfl, rfl, rfl, hkeys, rfl, rfl, rfl, rfl, rfl⟩, rfl⟩

/-- How a batch starts: it is over before any platform call, or runs prepared. -/
inductive BatchStart (cfg : StoreConfig) (rt : Runtime) (nowUs : Int)
    (items : List BatchAppendItem) (fenced : Bool) (s : WriterCore) : Prop where
  | failed (e : StoreError) (s' : WriterCore) (quiet : Uncommitted 0 s s')
      (disk : s'.disk = s.disk)
      (run : ∀ flt, handleAppendBatch cfg rt flt nowUs items fenced s = .error e s')
  | replayed (receipts : List AppendReceipt)
      (known : items = [] ∧ receipts = [] ∨
        preflightBatchIdempotency rt s.index items = .ok (some receipts))
      (run : ∀ flt, handleAppendBatch cfg rt flt nowUs items fenced s = .ok receipts s)
  | prepared (s₀ : WriterCore) (nonempty : items ≠ [])
      (valid : validateBatch cfg rt items = .ok ())
      (fresh : preflightBatchIdempotency rt s.index items = .ok none)
      (homogeneous : ∀ i ∈ items, batchKeyed items = i.idempotencyKey.isSome)
      (quiet : Uncommitted 0 s s₀) (disk : s₀.disk = s.disk)
      (run : ∀ flt, handleAppendBatch cfg rt flt nowUs items fenced s =
        handlePreparedBatch cfg rt flt nowUs items fenced s₀)

theorem handleAppendBatch_starts (cfg : StoreConfig) (rt : Runtime) (nowUs : Int)
    (items : List BatchAppendItem) (fenced : Bool) (s : WriterCore) :
    BatchStart cfg rt nowUs items fenced s := by
  have hget : (MonadState.get : WriterM WriterCore) s = .ok s s := rfl
  cases hvalid : validateBatch cfg rt items with
  | error e =>
      refine .failed e s (Uncommitted.refl s) rfl fun flt => ?_
      exact bind_eq_error.mpr (.inl (liftExcept_of_error hvalid s))
  | ok u =>
      by_cases hempty : items = []
      · subst hempty
        exact .replayed [] (.inl ⟨rfl, rfl⟩) fun flt => bind_of_ok (liftExcept_of_ok hvalid s)
      · cases hkeyed : ensure (decide ((items.filter fun i => i.idempotencyKey.isSome).length = 0 ∨
            (items.filter fun i => i.idempotencyKey.isSome).length = items.length))
            (.idempotencyPartialBatch "batch must have all items keyed or all unkeyed") with
        | error e =>
            refine .failed e s (Uncommitted.refl s) rfl fun flt => ?_
            unfold handleAppendBatch
            rw [bind_of_ok (liftExcept_of_ok hvalid s), if_neg (by simpa using hempty)]
            exact bind_eq_error.mpr (.inl (liftExcept_of_error hkeyed s))
        | ok v =>
            -- what follows the two checks, whatever the preflight answers
            have hchecked : ∀ flt, ∃ resume : Option (List AppendReceipt) →
                WriterM (List AppendReceipt),
                handleAppendBatch cfg rt flt nowUs items fenced s =
                  (liftExcept (preflightBatchIdempotency rt s.index items) >>= resume) s ∧
                (∀ receipts, resume (some receipts) = pure receipts) ∧
                resume none = (do
                  admitBatchKeys items
                  handlePreparedBatch cfg rt flt nowUs items fenced) := by
              intro flt
              unfold handleAppendBatch
              rewrite [bind_of_ok (liftExcept_of_ok hvalid s), if_neg (by simpa using hempty),
                bind_of_ok (liftExcept_of_ok hkeyed s), bind_of_ok hget]
              exact ⟨_, rfl, fun _ => rfl, rfl⟩
            cases hpre : preflightBatchIdempotency rt s.index items with
            | error e =>
                refine .failed e s (Uncommitted.refl s) rfl fun flt => ?_
                obtain ⟨resume, hbatch, -, -⟩ := hchecked flt
                rw [hbatch]
                exact bind_eq_error.mpr (.inl (liftExcept_of_error hpre s))
            | ok cached =>
                cases cached with
                | some receipts =>
                    refine .replayed receipts (.inr hpre) fun flt => ?_
                    obtain ⟨resume, hbatch, hknown, -⟩ := hchecked flt
                    rw [hbatch, bind_of_ok (liftExcept_of_ok hpre s), hknown]
                    rfl
                | none =>
                    obtain ⟨hquiet, hdisk⟩ := admitBatchKeys_quiet items s
                    have hkeys : ∀ flt, handleAppendBatch cfg rt flt nowUs items fenced s =
                        (admitBatchKeys items >>= fun _ =>
                          handlePreparedBatch cfg rt flt nowUs items fenced) s := by
                      intro flt
                      obtain ⟨resume, hbatch, -, hunknown⟩ := hchecked flt
                      rw [hbatch, bind_of_ok (liftExcept_of_ok hpre s), hunknown]
                    cases hres : admitBatchKeys items s with
                    | error e s' =>
                        rw [hres] at hquiet hdisk
                        refine .failed e s' hquiet hdisk fun flt => ?_
                        rw [hkeys, bind_eq_error.mpr (.inl hres)]
                    | ok w s' =>
                        rw [hres] at hquiet hdisk
                        refine .prepared s' hempty hvalid hpre ?_ hquiet hdisk fun flt => ?_
                        · apply homogeneous_of_keyedCount
                          unfold ensure at hkeyed
                          split at hkeyed
                          · rename_i hcount
                            exact of_decide_eq_true hcount
                          · cases hkeyed
                        · rw [hkeys, bind_of_ok hres]

theorem handleAppendBatch_cases (cfg : StoreConfig) (rt : Runtime) (flt : Faults) (nowUs : Int)
    (items : List BatchAppendItem) (fenced : Bool) (s : WriterCore) :
    BatchCases rt items fenced s (handleAppendBatch cfg rt flt nowUs items fenced s) := by
  rcases handleAppendBatch_starts cfg rt nowUs items fenced s with
    ⟨e, s', hquiet, -, hrun⟩ | ⟨receipts, hknown, hrun⟩ |
    ⟨s₀, hne, -, hpre, hkeyed, hquiet, -, hrun⟩ <;> rw [hrun]
  · exact .failed e 0 s' hquiet
  · exact .replayed receipts hknown
  · have hreserved := hquiet.reserve items.length
    rcases handlePreparedBatch_cases cfg rt flt nowUs items fenced s₀ with
      ⟨e, s', he, hs'⟩ | ⟨staged, receipts, s₁, hprep, heq⟩
    · rw [he]
      exact .failed e items.length s' (hreserved.diskOnly hs')
    · rw [hquiet.globalSequence] at hprep heq
      rw [heq]
      exact .committed staged receipts _ s₁ hne hpre hkeyed hreserved hprep

end Batpak.Store
