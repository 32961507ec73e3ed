/-
Module: Batpak.Proofs.LaneChains
Purpose: The chain of every entity lane: each indexed event continues the head of its lane, over
  whole lives.
Trusted boundary: none
Main exports: chainGuards, intact_of_guarded_life
-/
import Batpak.Proofs.BatchStaging
import Batpak.Proofs.DurableHonesty
import Batpak.Proofs.GateBounds
import Batpak.Proofs.ReplayOrder
import Batpak.Util.Lanes

namespace Batpak.Store

open Batpak.Util

/-! ### Chains -/

/-- The chain an entry belongs to. -/
def IndexEntry.lane (e : IndexEntry) : String × Nat :=
  (e.coord.entity, e.dagLane)

/-- An entry continues the head of its lane: the next clock, the head's event hash for its
previous hash, and no earlier wall clock. -/
def Continues : Option IndexEntry → IndexEntry → Prop
  | none, e => e.clock = 0 ∧ e.hashChain.prevHash = 0
  | some h, e =>
      e.clock = h.clock + 1 ∧ e.hashChain.prevHash = h.hashChain.eventHash ∧ h.wallMs ≤ e.wallMs

/-- A log of entries, newest first, with intact chains, rising sequences and no event id
twice. -/
structure IntactLog (log : List IndexEntry) : Prop where
  chained : Chained IndexEntry.lane Continues log
  sequences : log.Pairwise fun a b => b.globalSequence < a.globalSequence
  ids : (log.map (·.eventId)).Nodup

/-- An index over an intact log whose chain heads are the newest entries of the lanes. -/
structure Intact (ix : StoreIndex) : Prop where
  log : IntactLog ix.inserted
  heads : ∀ k, laneHead IndexEntry.lane k ix.latest = laneHead IndexEntry.lane k ix.inserted
  below : ∀ e ∈ ix.inserted, e.globalSequence < ix.gate.allocated

theorem getLatestCommitted_eq (ix : StoreIndex) (entity : String) (lane : Nat) :
    ix.getLatestCommitted entity lane = laneHead IndexEntry.lane (entity, lane) ix.latest := by
  unfold StoreIndex.getLatestCommitted laneHead
  congr 1
  funext e
  rw [Bool.eq_iff_iff]
  simp [IndexEntry.lane]

/-- Earlier on the same chain. -/
def IndexEntry.Earlier (a b : IndexEntry) : Prop :=
  a.clock < b.clock ∧ a.wallMs ≤ b.wallMs

namespace IntactLog

variable {log : List IndexEntry}

theorem earlier (h : IntactLog log) :
    log.Pairwise fun a b => a.lane = b.lane → b.Earlier a := by
  apply Chained.pairwise _ _ h.chained
  · intro a b c hab hbc
    exact ⟨Nat.lt_trans hab.1 hbc.1, Nat.le_trans hab.2 hbc.2⟩
  · intro head a hlink
    exact ⟨by rw [hlink.1]; exact Nat.lt_succ_self _, hlink.2.2⟩

/-- A lane has one entry for each clock. -/
theorem unique (h : IntactLog log) {a b : IndexEntry} (ha : a ∈ log) (hb : b ∈ log)
    (hlane : a.lane = b.lane) (hclock : a.clock = b.clock) : a = b := by
  by_contra hne
  rcases pairwise_mem h.earlier ha hb hne with hab | hba
  · exact Nat.ne_of_gt (hab hlane).1 hclock
  · exact Nat.ne_of_lt (hba hlane.symm).1 hclock

theorem unique_id (h : IntactLog log) {a b : IndexEntry} (ha : a ∈ log) (hb : b ∈ log)
    (hid : a.eventId = b.eventId) : a = b :=
  List.inj_on_of_nodup_map h.ids ha hb hid

theorem unique_sequence (h : IntactLog log) {a b : IndexEntry} (ha : a ∈ log) (hb : b ∈ log)
    (hsequence : a.globalSequence = b.globalSequence) : a = b := by
  by_contra hne
  rcases pairwise_mem h.sequences ha hb hne with hab | hba
  · exact Nat.ne_of_gt hab hsequence
  · exact Nat.ne_of_lt hba hsequence

/-- On a lane clocks and sequences rise together. -/
theorem clock_lt_of_sequence_lt (h : IntactLog log) {a b : IndexEntry} (ha : a ∈ log)
    (hb : b ∈ log) (hlane : a.lane = b.lane) (hsequence : a.globalSequence < b.globalSequence) :
    a.clock < b.clock := by
  have hne : a ≠ b := fun heq => Nat.ne_of_lt hsequence (heq ▸ rfl)
  rcases pairwise_mem (h.sequences.and h.earlier) ha hb hne with hab | hba
  · exact absurd hab.1 (Nat.lt_asymm hsequence)
  · exact (hba.2 hlane.symm).1

/-- The first entry of a lane. -/
theorem genesis (h : IntactLog log) {e : IndexEntry} (he : e ∈ log) (hclock : e.clock = 0) :
    e.hashChain.prevHash = 0 := by
  obtain ⟨older, -, hlink⟩ := h.chained.link he
  cases hhead : laneHead IndexEntry.lane e.lane older with
  | none =>
      rw [hhead] at hlink
      exact hlink.2
  | some p =>
      rw [hhead] at hlink
      have hnext : e.clock = p.clock + 1 := hlink.1
      omega

/-- Every other entry has its predecessor in the log. -/
theorem predecessor (h : IntactLog log) {e : IndexEntry} {c : Nat} (he : e ∈ log)
    (hclock : e.clock = c + 1) :
    ∃ p ∈ log, p.lane = e.lane ∧ p.clock = c ∧ e.hashChain.prevHash = p.hashChain.eventHash ∧
      p.wallMs ≤ e.wallMs ∧ p.globalSequence < e.globalSequence := by
  obtain ⟨older, hsuffix, hlink⟩ := h.chained.link he
  cases hhead : laneHead IndexEntry.lane e.lane older with
  | none =>
      rw [hhead] at hlink
      have hzero : e.clock = 0 := hlink.1
      omega
  | some p =>
      rw [hhead] at hlink
      obtain ⟨hnext, hprev, hwall⟩ := hlink
      obtain ⟨hp, hlane⟩ := mem_of_laneHead hhead
      have hsequence := (h.sequences.sublist hsuffix.sublist)
      rw [List.pairwise_cons] at hsequence
      refine ⟨p, hsuffix.subset (List.mem_cons_of_mem _ hp), hlane, by omega, hprev, hwall, ?_⟩
      exact hsequence.1 p hp

end IntactLog

/-! ### What the writer adds -/

section Writer

variable {ix : StoreIndex}

theorem laneHead_append (k : String × Nat) (xs ys : List IndexEntry) :
    laneHead IndexEntry.lane k (xs ++ ys) =
      (laneHead IndexEntry.lane k xs).or (laneHead IndexEntry.lane k ys) := by
  unfold laneHead
  rw [List.find?_append]

/-- The state a batch item continues, read off the head of its lane. -/
theorem continues_of_headView {head : Option IndexEntry} {e : IndexEntry}
    (hclock : e.clock = (headView head).nextClock)
    (hprev : e.hashChain.prevHash = (headView head).prevHash)
    (hwall : (headView head).lastWallMs ≤ e.wallMs) : Continues head e := by
  cases head with
  | none => exact ⟨hclock, hprev⟩
  | some h => exact ⟨hclock, hprev, hwall⟩

theorem headView_cons_self (e : IndexEntry) (log : List IndexEntry) :
    headView (laneHead IndexEntry.lane e.lane (e :: log)) =
      ⟨e.hashChain.eventHash, e.clock + 1, e.wallMs⟩ := by
  rw [laneHead_cons, if_pos rfl]
  rfl

/-- Index entries of staged events, wherever their frames were put. -/
def PlacedAs (staged : List StagedCommittedEvent) (entries : List IndexEntry) : Prop :=
  List.Forall₂ (fun st e => ∃ pos, e = st.indexEntry pos) staged entries

/-- The lane state of an item is the head of its lane with the earlier items in. -/
theorem entityState_headView {prev : List StagedCommittedEvent} {newest : List IndexEntry}
    {item : BatchAppendItem} {state : BatchEntityState}
    (h : entityState ix (batchStates prev) item = .ok state)
    (hplaced : PlacedAs prev.reverse newest) :
    state = headView (laneHead IndexEntry.lane (item.coord.entity, item.dagLane)
      (newest ++ ix.latest)) := by
  induction prev using List.reverseRecOn generalizing newest with
  | nil =>
      cases hplaced
      have hlookup : List.lookup (item.coord.entity, item.dagLane) (batchStates []) = none := rfl
      unfold entityState at h
      rw [hlookup] at h
      obtain ⟨next, hnext, h⟩ := bindOk_iff.mp h
      cases h
      rw [checkedNextClock_headView] at hnext
      split at hnext
      · cases hnext
        rw [List.nil_append, ← getLatestCommitted_eq]
        rfl
      · cases hnext
  | append_singleton prev st ih =>
      rw [List.reverse_append] at hplaced
      cases hplaced with
      | cons hlast hbefore =>
          rename_i e older
          obtain ⟨pos, rfl⟩ := hlast
          unfold entityState at h
          rw [batchStates_append, List.lookup_cons] at h
          by_cases hkey : (item.coord.entity, item.dagLane) =
              (st.frame.coord.entity, st.frame.dagLane)
          · rw [hkey, beq_self_eq_true] at h
            cases h
            rw [hkey]
            exact (headView_cons_self (st.indexEntry pos) (older ++ ix.latest)).symm
          · rw [beq_eq_false_iff_ne.mpr hkey] at h
            have hother : (st.indexEntry pos).lane ≠ (item.coord.entity, item.dagLane) :=
              fun heq => hkey heq.symm
            rw [List.cons_append, laneHead_cons, if_neg hother]
            exact ih h hbefore

/-- Staged items continue the log one after another. -/
theorem stagedFrom_chained {rt : Runtime} {ctx : BatchContext} {log : List IndexEntry}
    {prev new : List StagedCommittedEvent} {items : List BatchAppendItem}
    (hstaged : StagedFrom rt ctx ix prev items new)
    (hheads : ∀ k, laneHead IndexEntry.lane k ix.latest = laneHead IndexEntry.lane k log)
    {before after : List IndexEntry} (hbefore : PlacedAs prev.reverse before)
    (hafter : PlacedAs new after) (h : Chained IndexEntry.lane Continues (before ++ log)) :
    Chained IndexEntry.lane Continues (after.reverse ++ (before ++ log)) := by
  induction hstaged generalizing before after with
  | nil prev =>
      cases hafter
      exact h
  | cons prev item rest state causation more lane bounded tail ih =>
      cases hafter with
      | cons hfirst hmore =>
          rename_i e newer
          obtain ⟨pos, rfl⟩ := hfirst
          have hstate := entityState_headView lane hbefore
          rw [laneHead_append, hheads, ← laneHead_append] at hstate
          have hnext : Chained IndexEntry.lane Continues
              ((stageItem rt ctx prev.length item state causation).indexEntry pos ::
                (before ++ log)) := by
            refine ⟨?_, h⟩
            apply continues_of_headView
            · exact congrArg BatchEntityState.nextClock hstate
            · exact congrArg BatchEntityState.prevHash hstate
            · apply Nat.le_trans (Nat.le_of_eq (congrArg BatchEntityState.lastWallMs hstate).symm)
              exact Nat.le_max_right _ _
          have hplaced : PlacedAs (prev ++ [stageItem rt ctx prev.length item state
              causation]).reverse
              ((stageItem rt ctx prev.length item state causation).indexEntry pos :: before) := by
            rw [List.reverse_append]
            exact .cons ⟨pos, rfl⟩ hbefore
          have hrest := ih hplaced hmore hnext
          simpa using hrest

/-- A single event continues the chain head it is staged on. -/
theorem stageAppend_continues {rt : Runtime} {req : AppendRequest} {latest : Option IndexEntry}
    {segmentId globalSeq : Nat} {fence : Option Nat} {st : StagedCommittedEvent}
    (h : stageAppend rt req latest segmentId globalSeq fence = .ok st) (pos : DiskPos) :
    Continues latest (st.indexEntry pos) := by
  obtain ⟨clock, hclock, h⟩ := bindOk_iff.mp h
  obtain ⟨rawMs, -, h⟩ := bindOk_iff.mp h
  cases h
  rw [checkedNextClock_headView] at hclock
  split at hclock
  · cases hclock
    exact continues_of_headView rfl rfl (Nat.le_max_right _ _)
  · cases hclock

theorem Intact.push (h : Intact ix) {e : IndexEntry}
    (hlink : Continues (laneHead IndexEntry.lane e.lane ix.latest) e)
    (hsequence : e.globalSequence = ix.gate.allocated)
    (hid : e.eventId ∉ ix.inserted.map (·.eventId)) : Intact (ix.insert e) where
  log := by
    rw [StoreIndex.insert_inserted]
    refine ⟨⟨h.heads _ ▸ hlink, h.log.chained⟩, ?_, List.nodup_cons.mpr ⟨hid, h.log.ids⟩⟩
    rw [List.pairwise_cons]
    exact ⟨fun x hx => hsequence ▸ h.below x hx, h.log.sequences⟩
  heads k := by
    rw [StoreIndex.insert_latest, StoreIndex.insert_inserted, laneHead_cons, laneHead_cons, h.heads]
  below x hx := by
    rw [StoreIndex.insert_inserted] at hx
    rcases List.mem_cons.mp hx with rfl | hx
    · rw [hsequence]
      exact Nat.lt_succ_self _
    · exact Nat.lt_succ_of_lt (h.below x hx)

/-- The sequences of a batch were reserved before it was staged. -/
theorem Intact.pushBatch (h : Intact ix) {entries : List IndexEntry} {gate : SequenceGate}
    (hchained : Chained IndexEntry.lane Continues (entries.reverse ++ ix.inserted))
    (hsequences : entries.Pairwise fun a b => a.globalSequence < b.globalSequence)
    (hreserved : ∀ e ∈ entries, ix.gate.allocated ≤ e.globalSequence ∧
      e.globalSequence < gate.allocated)
    (hgate : ix.gate.allocated ≤ gate.allocated)
    (hids : ((entries.reverse ++ ix.inserted).map (·.eventId)).Nodup) :
    Intact ({ ix with gate := gate }.insertBatch entries) where
  log := by
    rw [StoreIndex.insertBatch_inserted]
    refine ⟨hchained, ?_, hids⟩
    rw [List.pairwise_append, List.pairwise_reverse]
    refine ⟨hsequences, h.log.sequences, ?_⟩
    intro a ha b hb
    exact Nat.lt_of_lt_of_le (h.below b hb) (hreserved a (List.mem_reverse.mp ha)).1
  heads k := by
    rw [StoreIndex.insertBatch_latest, StoreIndex.insertBatch_inserted, laneHead_append,
      laneHead_append, h.heads]
  below e he := by
    rw [StoreIndex.insertBatch_inserted] at he
    rw [StoreIndex.insertBatch_gate]
    rcases List.mem_append.mp he with he | he
    · exact (hreserved e (List.mem_reverse.mp he)).2
    · exact Nat.lt_of_lt_of_le (h.below e he) hgate

/-- An index with the same entries and an allocator that is not behind. -/
theorem Intact.transfer (h : Intact ix) {ix' : StoreIndex} (hinserted : ix'.inserted = ix.inserted)
    (hlatest : ix'.latest = ix.latest) (hallocated : ix.gate.allocated ≤ ix'.gate.allocated) :
    Intact ix' where
  log := hinserted ▸ h.log
  heads k := by rw [hlatest, hinserted, h.heads]
  below e he := Nat.lt_of_lt_of_le (h.below e (hinserted ▸ he)) hallocated

/-- An append that is no replay brings an event id the index does not have. -/
def NewEventId (s : WriterCore) (req : AppendRequest) : Prop :=
  (∀ key, req.idempotencyKey = some key → UnknownKey s.index key) →
    req.eventId ∉ s.index.inserted.map (·.eventId)

/-- A batch that is no replay brings different event ids the index does not have. -/
def NewItemIds (rt : Runtime) (s : WriterCore) (items : List BatchAppendItem) : Prop :=
  preflightBatchIdempotency rt s.index items = .ok none →
    (items.map (·.eventId)).Nodup ∧
      ∀ item ∈ items, item.eventId ∉ s.index.inserted.map (·.eventId)

variable {rt : Runtime} {s : WriterCore}

/-- Publication leaves the log, the heads and the allocator alone. -/
theorem Intact.publish (h : Intact s.index) {α : Type} (fenced : Bool) (first upTo : Nat)
    (point : HlcPoint) (notifications : List Notification) (a : α) :
    Intact (finalState ((publishCommitted fenced first upTo point notifications >>=
      fun _ => pure a) s)).index := by
  rw [finalState_bind_pure]
  have honly := (publishCommitted_publishOnly fenced first upTo point notifications s).finalState
  have hfooting := (publishCommitted_sameFooting fenced first upTo point notifications s).finalState
  exact h.transfer honly.inserted honly.latest (Nat.le_of_eq hfooting.allocated.symm)

theorem Intact.handleAppend (cfg : StoreConfig) (flt : Faults) {req : AppendRequest}
    (fenced : Bool) (h : Intact s.index) (hid : NewEventId s req) :
    Intact (finalState (handleAppend cfg rt flt req fenced s)).index := by
  have hcases := handleAppend_cases cfg rt flt req fenced s
  generalize Store.handleAppend cfg rt flt req fenced s = result at hcases
  cases hcases with
  | failed e s' quiet =>
      rw [finalState_error]
      apply h.transfer quiet.inserted quiet.latest
      rw [quiet.gate]
      exact Nat.le_refl _
  | replayed key receipt keyed guarded known => exact h
  | committed st pos s₀ s₁ quiet guarded fresh sameSegment prepared =>
      have hindex : s₁.index = s₀.index := prepared.diskOnly.index
      have hbefore : Intact s₁.index := by
        rw [hindex]
        apply h.transfer quiet.inserted quiet.latest
        rw [quiet.gate]
        exact Nat.le_refl _
      obtain ⟨-, hcoord, hlane, heventId, hsequence, -⟩ := stageAppend_ok prepared.staged
      have hlink := stageAppend_continues prepared.staged pos
      rw [AppendRequest.latest, getLatestCommitted_eq, ← quiet.latest, ← hindex] at hlink
      have hplace : (st.indexEntry pos).lane = (req.coord.entity, req.dagLane) := by
        rw [← hcoord, ← hlane]
        rfl
      have hpushed : Intact (s₁.index.insert (st.indexEntry pos)) := by
        apply hbefore.push
        · rw [hplace]
          exact hlink
        · rw [hindex]
          exact hsequence
        · rw [hindex, quiet.inserted]
          rw [show (st.indexEntry pos).eventId = req.eventId from heventId]
          exact hid fresh
      have hcommitted : Intact (commitState req.idempotencyKey.isSome st pos s₁).index :=
        hpushed.transfer rfl rfl (Nat.le_refl _)
      exact hcommitted.publish fenced _ _ _ _ _

/-- What a staged batch takes over from its items and its reservation. -/
theorem stagedFrom_ids {ctx : BatchContext} {ix : StoreIndex} {prev new : List StagedCommittedEvent}
    {items : List BatchAppendItem} (h : StagedFrom rt ctx ix prev items new) :
    new.map (·.globalSequence) = List.range' (ctx.firstSeq + prev.length) items.length ∧
      new.map (·.frame.eventId) = items.map (·.eventId) := by
  induction h with
  | nil prev => exact ⟨rfl, rfl⟩
  | cons prev item rest state causation more lane bounded tail ih =>
      obtain ⟨hsequences, hids⟩ := ih
      rw [List.length_append, List.length_singleton, ← Nat.add_assoc] at hsequences
      refine ⟨?_, ?_⟩
      · rw [List.map_cons, hsequences, List.length_cons, List.range'_succ]
        rfl
      · rw [List.map_cons, hids, List.map_cons]
        rfl

theorem batchEntries_placedAs {staged : List StagedCommittedEvent} {receipts : List AppendReceipt}
    (h : PlacedReceipts staged receipts) : PlacedAs staged (batchEntries staged receipts) := by
  induction h with
  | nil => exact .nil
  | cons hplaced hrest ih => exact .cons ⟨_, rfl⟩ ih

theorem PlacedAs.map {staged : List StagedCommittedEvent} {entries : List IndexEntry}
    (h : PlacedAs staged entries) :
    entries.map (·.globalSequence) = staged.map (·.globalSequence) ∧
      entries.map (·.eventId) = staged.map (·.frame.eventId) := by
  induction h with
  | nil => exact ⟨rfl, rfl⟩
  | cons hplaced hrest ih =>
      obtain ⟨pos, rfl⟩ := hplaced
      rw [List.map_cons, List.map_cons, List.map_cons, List.map_cons, ih.1, ih.2]
      exact ⟨rfl, rfl⟩

theorem Intact.handleAppendBatch (cfg : StoreConfig) (flt : Faults) (nowUs : Int)
    {items : List BatchAppendItem} (fenced : Bool) (h : Intact s.index)
    (hids : NewItemIds rt s items) :
    Intact (finalState (handleAppendBatch cfg rt flt nowUs items fenced s)).index := by
  have hcases := handleAppendBatch_cases cfg rt flt nowUs items fenced s
  generalize Store.handleAppendBatch cfg rt flt nowUs items fenced s = result at hcases
  cases hcases with
  | failed e n s' quiet =>
      rw [finalState_error]
      apply h.transfer quiet.inserted quiet.latest
      rw [quiet.gate]
      exact Nat.le_add_right _ _
  | replayed receipts known => exact h
  | committed staged receipts s₀ s₁ nonempty fresh homogeneous quiet prepared =>
      obtain ⟨ctx, hfirst, -, hstaged⟩ := prepared.stagedFrom
      have hplaced := batchEntries_placedAs prepared.placed
      obtain ⟨hsequences, heventIds⟩ := hplaced.map
      obtain ⟨hrange, hstagedIds⟩ := stagedFrom_ids hstaged
      rw [hfirst, List.length_nil, Nat.add_zero] at hrange
      rw [hrange] at hsequences
      rw [hstagedIds] at heventIds
      obtain ⟨hnodup, hnew⟩ := hids fresh
      have hgate : s₁.index.gate = s.index.gate.reserve items.length := by
        rw [prepared.diskOnly.index, quiet.gate]
      have hcommitted : Intact ({ s.index with gate := s₁.index.gate }.insertBatch
          (batchEntries staged receipts)) := by
        apply h.pushBatch
        · have hheads : ∀ k, laneHead IndexEntry.lane k s₀.index.latest =
              laneHead IndexEntry.lane k s.index.inserted := by
            rw [quiet.latest]
            exact h.heads
          have hchained : Chained IndexEntry.lane Continues
              ((batchEntries staged receipts).reverse ++ ([] ++ s.index.inserted)) :=
            stagedFrom_chained hstaged hheads .nil hplaced h.log.chained
          exact hchained
        · have hascending : (List.range' s.index.globalSequence items.length).Pairwise (· < ·) :=
            List.pairwise_lt_range'
          rw [← hsequences, List.pairwise_map] at hascending
          exact hascending
        · intro e he
          have hmem : e.globalSequence ∈
              List.range' s.index.globalSequence items.length := by
            rw [← hsequences]
            exact List.mem_map_of_mem he
          rw [List.mem_range'_1] at hmem
          rw [hgate]
          exact hmem
        · rw [hgate]
          exact Nat.le_add_right _ _
        · rw [List.map_append, List.map_reverse, heventIds, List.nodup_append']
          refine ⟨List.nodup_reverse.mpr hnodup, h.log.ids, ?_⟩
          intro id hid hold
          obtain ⟨item, hitem, rfl⟩ := List.mem_map.mp (List.mem_reverse.mp hid)
          exact hnew item hitem hold
      have hentries : s₁.index.inserted = s.index.inserted := by
        rw [prepared.diskOnly.index, quiet.inserted]
      have hheads : s₁.index.latest = s.index.latest := by
        rw [prepared.diskOnly.index, quiet.latest]
      have hbatch : Intact (commitBatchState (batchKeyed items) staged receipts s₁).index := by
        apply hcommitted.transfer
        · simp only [commitBatchState, StoreIndex.insertBatch_inserted, hentries]
        · simp only [commitBatchState, StoreIndex.insertBatch_latest, hheads]
        · simp only [commitBatchState, StoreIndex.insertBatch_gate, Nat.le_refl]
      exact hbatch.publish fenced _ _ _ _ _

end Writer

/-! ### Whole lives -/

/-- Appends bring new event ids unless they are replays. -/
def chainGuard (rt : Runtime) : CommandGuard := fun s _ cmd =>
  match cmd with
  | .append req _ => NewEventId s req
  | .fenceAppend _ req _ => NewEventId s req
  | .appendBatch _ items _ => NewItemIds rt s items
  | .fenceAppendBatch _ _ items _ => NewItemIds rt s items
  | _ => True

theorem chainCommands (cfg : StoreConfig) (rt : Runtime) :
    CommandRules cfg rt (fun s => Intact s.index) (chainGuard rt) where
  service := {
    reply := fun _ _ h => h
    beginFence := fun {s} token h =>
      have hentries := beginVisibilityFence_sameEntries token s
      h.transfer hentries.inserted hentries.latest
        (Nat.le_of_eq (beginVisibilityFence_sameFooting token s).allocated.symm)
    commitFence := fun {s} token h =>
      have hentries := commitVisibilityFence_sameEntries token s
      h.transfer hentries.inserted hentries.latest
        (Nat.le_of_eq (commitVisibilityFence_sameFooting token s).allocated.symm)
    cancelFence := fun {s} flt token h =>
      have hentries := cancelVisibilityFence_sameEntries flt token s
      h.transfer hentries.inserted hentries.latest
        (Nat.le_of_eq (cancelVisibilityFence_sameFooting flt token s).allocated.symm)
    autoCancel := fun {s} flt h =>
      have hentries := autoCancelFenceOnShutdown_sameEntries flt s
      h.transfer hentries.inserted hentries.latest
        (Nat.le_of_eq (autoCancelFenceOnShutdown_sameFooting flt s).allocated.symm)
    footer := fun h => h
    sync := fun flt h _ => by
      unfold syncActiveSegment
      split
      · exact h
      · exact h
    syncAfterCancel := fun _ _ _ => trivial
    syncAfterFooter := fun _ _ => trivial }
  pend _ h := h
  append flt req respond h hguard := h.handleAppend cfg flt false hguard
  fenceAppend flt token req respond h hguard _ := h.handleAppend cfg flt true hguard
  appendBatch flt nowUs items respond h hguard := h.handleAppendBatch cfg flt nowUs false hguard
  fenceAppendBatch flt token nowUs items respond h hguard _ :=
    h.handleAppendBatch cfg flt nowUs true hguard

/-- Of two entries of one lane the order of a restore puts the earlier one first. -/
theorem IntactLog.earlier_of_order {log : List IndexEntry} (h : IntactLog log) {a b : IndexEntry}
    (ha : a ∈ log) (hb : b ∈ log) (hne : a.eventId ≠ b.eventId) (hlane : a.lane = b.lane)
    (horder : StoreIndex.entityOrder a b = true) : a.Earlier b := by
  have hdistinct : a ≠ b := fun heq => hne (heq ▸ rfl)
  rcases pairwise_mem h.earlier ha hb hdistinct with hab | hba
  · have hlater : b.Earlier a := hab hlane
    rcases entityOrder_iff.mp horder with hlt | ⟨-, hle⟩
    · have hentity : a.coord.entity = b.coord.entity := congrArg Prod.fst hlane
      rw [hentity] at hlt
      exact absurd hlt (lt_irrefl _)
    · have hkey := clockKeyLe_iff.mp hle
      have hclock := hlater.1
      have hwall := hlater.2
      omega
  · exact hba hlane.symm

/-- A restore puts the newest entry of an intact lane in front of its chain heads. -/
theorem RestoredIndex.intact {entries : List IndexEntry} {hint : Nat}
    {ranges : Option CancelledVisibilityRanges} {ix : StoreIndex}
    (h : RestoredIndex entries hint ranges ix) (hlog : IntactLog ix.inserted)
    (hsorted : entries.Pairwise fun a b => a.globalSequence ≤ b.globalSequence) : Intact ix where
  log := hlog
  heads k := by
    have hsort : (entries.insertionSort fun a b => StoreIndex.entityOrder a b).Perm ix.inserted := by
      rw [h.inserted]
      exact (List.perm_insertionSort _ _).trans (List.reverse_perm _).symm
    have hperm : ix.latest.Perm ix.inserted := by
      rw [h.latest]
      exact (List.reverse_perm _).trans hsort
    apply laneHead_eq_of_perm _ hperm hlog.earlier
    · rw [h.latest, List.pairwise_reverse]
      have hordered := List.pairwise_insertionSort
        (fun a b : IndexEntry => StoreIndex.entityOrder a b = true) entries
      have hnodup := (hsort.map (·.eventId)).nodup_iff.mpr hlog.ids
      rw [List.Nodup, List.pairwise_map] at hnodup
      apply (hordered.and hnodup).imp_of_mem
      rintro a b ha hb ⟨horder, hne⟩ hlane
      exact hlog.earlier_of_order (hsort.mem_iff.mp ha) (hsort.mem_iff.mp hb) hne hlane.symm horder
    · intro a b hab hba
      exact Nat.lt_asymm hab.1 hba.1
  below e he := by
    rw [h.gate.allocated]
    rw [h.inserted] at he
    exact lt_nextSequence hint hsorted (List.mem_reverse.mp he)

/-- The store is not compacted, appends bring new event ids, and every open recovers intact
chains. -/
def chainGuards (cfg : LifecycleConfig) (rt : Runtime) : LifeGuards where
  command := chainGuard rt
  compact _ _ := False
  close _ _ := True
  crash _ _ _ := True
  reopen segments ranges side fences inputs :=
    ∀ index, openIndex rt cfg.retention cfg.overflow side.snapshot side.idemp ranges segments =
      .ok index → IntactLog index.inserted ∧
        (chainGuard rt).AllowsOpen (spawnStore cfg index segments ranges fences) inputs

theorem chainLife (cfg : LifecycleConfig) (rt : Runtime) :
    LifeRules cfg rt (fun core _ => Intact core.index) (fun _ _ _ _ => True)
      (chainGuards cfg rt) where
  writer _ := chainCommands cfg.store rt
  watermark _ h := h
  beginFence h := h.transfer rfl rfl (Nat.le_of_eq (SequenceGate.beginFence_allocated _).symm)
  swap _ hguard _ := hguard.elim
  sweep h := h.transfer rfl rfl (Nat.le_refl _)
  flush h := h
  snapshot h := h
  closed _ _ _ _ := trivial
  crash _ _ := trivial
  spawn {segments ranges side fences index inputs} _ hguard hindex := by
    obtain ⟨hlog, hopen⟩ := hguard index hindex
    obtain ⟨entries, hint, hplan, hrestored⟩ := openIndex_restored hindex
    have hsorted := (@restorePlan_of (fun _ => True) _ _ _ _ _ (fun _ _ _ _ => trivial)
      (scanRules_any _) hplan).sorted
    exact ⟨hrestored.intact hlog hsorted, hopen⟩
  abandon _ _ := trivial

/-- In every life of an uncompacted store whose opens recover intact chains and which never
indexes an event id twice, the chains of the running store are intact. -/
theorem intact_of_guarded_life (cfg : LifecycleConfig) (rt : Runtime) (steps : List LifecycleStep)
    (h : Guarded (lifecycleStep cfg rt) (chainGuards cfg rt).Allows .blank steps)
    {core : WriterCore} (hcore : (run (lifecycleStep cfg rt) .blank steps).core? = some core) :
    Intact core.index := by
  have hfinal := run_invariant (chainLife cfg rt).lifecycleStep steps .blank trivial h
  generalize run (lifecycleStep cfg rt) .blank steps = st at hfinal hcore
  cases st with
  | opened core' side =>
      cases hcore
      exact hfinal
  | closed segments ranges side fences => cases hcore

/-! ### Deciding the guards of a run -/

instance decidableOfOk {ε α : Type} {P : α → Prop} [DecidablePred P] :
    (x : Except ε α) → Decidable (∀ a, x = .ok a → P a)
  | .ok a => decidable_of_iff (P a) ⟨fun h _ hb => Except.ok.inj hb ▸ h, fun h => h a rfl⟩
  | .error _ => isTrue (fun _ h => nomatch h)

instance decidableContinues : (head : Option IndexEntry) → (e : IndexEntry) →
    Decidable (Continues head e)
  | none, e => inferInstanceAs (Decidable (e.clock = 0 ∧ e.hashChain.prevHash = 0))
  | some h, e => inferInstanceAs (Decidable (e.clock = h.clock + 1 ∧
      e.hashChain.prevHash = h.hashChain.eventHash ∧ h.wallMs ≤ e.wallMs))

instance (log : List IndexEntry) : Decidable (IntactLog log) :=
  decidable_of_iff
    (Chained IndexEntry.lane Continues log ∧
      (log.Pairwise fun a b => b.globalSequence < a.globalSequence) ∧
      (log.map (·.eventId)).Nodup)
    ⟨fun ⟨chained, sequences, ids⟩ => ⟨chained, sequences, ids⟩,
      fun h => ⟨h.chained, h.sequences, h.ids⟩⟩

instance (ix : StoreIndex) (key : Nat) : Decidable (UnknownKey ix key) :=
  inferInstanceAs (Decidable (_ ∧ _))

instance (s : WriterCore) (req : AppendRequest) : Decidable (NewEventId s req) :=
  inferInstanceAs (Decidable ((∀ key ∈ req.idempotencyKey, UnknownKey s.index key) → _))

instance (rt : Runtime) (s : WriterCore) (items : List BatchAppendItem) :
    Decidable (NewItemIds rt s items) :=
  decidable_of_iff
    (∀ cached, preflightBatchIdempotency rt s.index items = .ok cached → cached = none →
      (items.map (·.eventId)).Nodup ∧
        ∀ item ∈ items, item.eventId ∉ s.index.inserted.map (·.eventId))
    ⟨fun h hnone => h none hnone rfl, fun h _ hcached hnone => h (hnone ▸ hcached)⟩

instance decidableChainGuard (rt : Runtime) (s : WriterCore) (flt : Faults) :
    (cmd : WriterCommand) → Decidable (chainGuard rt s flt cmd)
  | .append req _ => inferInstanceAs (Decidable (NewEventId s req))
  | .fenceAppend _ req _ => inferInstanceAs (Decidable (NewEventId s req))
  | .appendBatch _ items _ => inferInstanceAs (Decidable (NewItemIds rt s items))
  | .fenceAppendBatch _ _ items _ => inferInstanceAs (Decidable (NewItemIds rt s items))
  | .beginVisibilityFence .. | .commitVisibilityFence .. | .cancelVisibilityFence .. | .sync ..
  | .shutdown .. => inferInstanceAs (Decidable True)

instance decidableChainGuards (cfg : LifecycleConfig) (rt : Runtime) :
    (st : StoreState) → (step : LifecycleStep) → Decidable ((chainGuards cfg rt).Allows st step)
  | .opened core _, .writer (.command _ q) =>
      inferInstanceAs (Decidable (q.command.appends = true → chainGuard rt core q.faults q.command))
  | .closed segments ranges side fences, .reopen inputs =>
      inferInstanceAs (Decidable (∀ index, openIndex rt cfg.retention cfg.overflow side.snapshot
        side.idemp ranges segments = .ok index → IntactLog index.inserted ∧
          ∀ lastClose, lastCloseHlc (spawnStore cfg index segments ranges fences).index =
            .ok lastClose → NewEventId (spawnStore cfg index segments ranges fences)
              (openCompletedRequest inputs.eventId inputs.report
                (openCandidate (highestHlc (spawnStore cfg index segments ranges
                  fences).index.allEntries) lastClose inputs.nowUs))))
  | .opened .., .compact .. => inferInstanceAs (Decidable False)
  | .opened .., .writer (.periodicSync _) | .opened .., .writer (.completeShutdown ..)
  | .opened .., .close _ | .opened .., .crash .. | .opened .., .beginFence
  | .opened .., .reopen _ | .closed .., .beginFence | .closed .., .writer _
  | .closed .., .compact .. | .closed .., .close _ | .closed .., .crash .. =>
      inferInstanceAs (Decidable True)

end Batpak.Store
