/-
Module: Batpak.Proofs.CursorReading
Purpose: What a reader in the middle of a poll has to account for, and how every change of the
  index keeps the account.
Trusted boundary: none (fully proved)
Main exports: feed_moves, Reading
-/
import Batpak.Store.Cursor
import Batpak.Proofs.QueryExact
import Batpak.Proofs.GateBounds

namespace Batpak.Store

open Batpak.Util

variable {r region : Region} {g : SequenceGate} {sequence dagLane : Nat} {hit : QueryHit}
  {e : IndexEntry}

/-! ### Visibility under the gate operations -/

/-- The lane of the region shows at most what is shown globally. -/
def LaneBelow (r : Region) (g : SequenceGate) : Prop :=
  ∀ lane ∈ r.lane, g.laneVisible lane ≤ g.visible

instance decidableLaneBelow (r : Region) (g : SequenceGate) : Decidable (LaneBelow r g) :=
  inferInstanceAs (Decidable (∀ lane ∈ r.lane, _))

/-- Below this bound a region shows everything that is not cancelled. -/
def Region.bound (r : Region) (g : SequenceGate) : Nat :=
  match r.lane with
  | some lane => g.laneVisible lane
  | none => g.visible

theorem lt_bound_of_shows (h : r.shows g sequence dagLane = true) : sequence < r.bound g := by
  unfold Region.shows at h
  unfold Region.bound
  cases hlane : r.lane with
  | none =>
      rw [hlane] at h
      exact of_decide_eq_true (Bool.and_eq_true_iff.mp h).1
  | some lane =>
      rw [hlane] at h
      have hvisible := (Bool.and_eq_true_iff.mp h).2
      unfold SequenceGate.isVisibleOnLane at hvisible
      simp only [Bool.and_eq_true] at hvisible
      exact of_decide_eq_true hvisible.1.1

theorem isVisible_of_shows (hlanes : LaneBelow r g) (h : r.shows g sequence dagLane = true) :
    g.isVisible sequence = true := by
  unfold Region.shows at h
  cases hlane : r.lane with
  | none =>
      rw [hlane] at h
      exact h
  | some lane =>
      rw [hlane] at h
      have hvisible := (Bool.and_eq_true_iff.mp h).2
      unfold SequenceGate.isVisibleOnLane at hvisible
      simp only [Bool.and_eq_true] at hvisible
      have hlt : sequence < g.visible :=
        Nat.lt_of_lt_of_le (of_decide_eq_true hvisible.1.1) (hlanes lane hlane)
      unfold SequenceGate.isVisible
      rw [decide_eq_true hlt, hvisible.1.2]
      rfl

/-- The bounds rise and nothing cancelled comes back. -/
structure GateGrows (g g' : SequenceGate) : Prop where
  visible : g.visible ≤ g'.visible
  lanes : ∀ lane, g.laneVisible lane ≤ g'.laneVisible lane
  cancelled : ∀ x, rangeContains g.cancelledRanges x = true →
    rangeContains g'.cancelledRanges x = true
  laneCancelled : ∀ lane x, rangeContains (g.laneCancelledRanges lane) x = true →
    rangeContains (g'.laneCancelledRanges lane) x = true
  below : ∀ r, LaneBelow r g → LaneBelow r g'

namespace GateGrows

variable {g g' : SequenceGate}

theorem refl (g : SequenceGate) : GateGrows g g :=
  ⟨Nat.le_refl _, fun _ => Nat.le_refl _, fun _ h => h, fun _ _ h => h, fun _ h => h⟩

theorem bound (h : GateGrows g g') (r : Region) : r.bound g ≤ r.bound g' := by
  unfold Region.bound
  cases r.lane with
  | none => exact h.visible
  | some lane => exact h.lanes lane

/-- What a grown gate shows below the old bound was shown before. -/
theorem shows (h : GateGrows g g') (hlt : sequence < r.bound g)
    (hshows : r.shows g' sequence dagLane = true) :
    r.shows g sequence dagLane = true := by
  have hnot : ∀ {b b' : Bool}, (b = true → b' = true) → (!b') = true → (!b) = true := by
    decide
  unfold Region.shows at hshows ⊢
  unfold Region.bound at hlt
  cases hlane : r.lane with
  | none =>
      rw [hlane] at hshows hlt
      unfold SequenceGate.isVisible at hshows ⊢
      simp only [Bool.and_eq_true] at hshows ⊢
      exact ⟨decide_eq_true hlt, hnot (h.cancelled sequence) hshows.2⟩
  | some lane =>
      rw [hlane] at hshows hlt
      unfold SequenceGate.isVisibleOnLane at hshows ⊢
      simp only [Bool.and_eq_true] at hshows ⊢
      obtain ⟨hmatch, ⟨-, hglobal⟩, hcancelled⟩ := hshows
      exact ⟨hmatch, ⟨decide_eq_true hlt, hnot (h.cancelled sequence) hglobal⟩,
        hnot (h.laneCancelled lane sequence) hcancelled⟩

theorem of_same (hvisible : g'.visible = g.visible) (hlanes : g'.laneVisible = g.laneVisible)
    (hcancelled : g'.cancelledRanges = g.cancelledRanges)
    (hlaneCancelled : g'.laneCancelledRanges = g.laneCancelledRanges) : GateGrows g g' := by
  refine ⟨hvisible.ge, ?_, ?_, ?_, ?_⟩
  · intro lane
    rw [hlanes]
  · intro x hx
    rw [hcancelled]
    exact hx
  · intro lane x hx
    rw [hlaneCancelled]
    exact hx
  · intro r hbelow lane hlane
    rw [hlanes, hvisible]
    exact hbelow lane hlane

end GateGrows

theorem le_installLanes {low lanes : Nat → Nat} {points : List (Nat × Nat)}
    (hlanes : ∀ lane, low lane ≤ lanes lane) (hpoints : ∀ p ∈ points, low p.1 ≤ p.2)
    (lane : Nat) : low lane ≤ SequenceGate.installLanes lanes points lane := by
  induction points generalizing lanes with
  | nil => exact hlanes lane
  | cons p rest ih =>
      change low lane ≤ SequenceGate.installLanes (Function.update lanes p.1 p.2) rest lane
      apply ih
      · intro l
        by_cases hl : l = p.1
        · subst hl
          rw [Function.update_self]
          exact hpoints p List.mem_cons_self
        · rw [Function.update_of_ne hl]
          exact hlanes l
      · intro q hq
        exact hpoints q (List.mem_cons_of_mem _ hq)

/-- Lane bounds never exceed the global bound they are published with. -/
def GateOp.Bounded : GateOp → Prop
  | .publish upTo lanes => ∀ p ∈ lanes, p.2 ≤ upTo
  | .finishFence _ (some upTo) lanes => ∀ p ∈ lanes, p.2 ≤ upTo
  | _ => True

instance decidableGateOpBounded (op : GateOp) : Decidable op.Bounded :=
  match op with
  | .publish upTo lanes => inferInstanceAs (Decidable (∀ p ∈ lanes, p.2 ≤ upTo))
  | .finishFence _ (some upTo) lanes => inferInstanceAs (Decidable (∀ p ∈ lanes, p.2 ≤ upTo))
  | .finishFence _ none _ => inferInstanceAs (Decidable True)
  | .reserve _ | .beginFence | .noteProgress _ _ _ | .cancelFence _ =>
      inferInstanceAs (Decidable True)

theorem publishOnLanes_grows {g' : SequenceGate} {upTo : Nat} {lanes : List (Nat × Nat)}
    {operation : String} (hbounded : ∀ p ∈ lanes, p.2 ≤ upTo)
    (h : g.publishOnLanes upTo lanes operation = .ok g') : GateGrows g g' := by
  have hpoints := SequenceGate.publishOnLanes_lane_ok h
  obtain ⟨-, hvisible, rfl⟩ := SequenceGate.publishOnLanes_ok h
  refine ⟨hvisible, ?_, fun _ hx => hx, fun _ _ hx => hx, ?_⟩
  · exact le_installLanes (fun _ => Nat.le_refl _) fun p hp => (hpoints p hp).1
  · intro r hbelow lane hlane
    exact SequenceGate.installLanes_le ((hbelow lane hlane).trans hvisible) hbounded

theorem cancelFence_grows {g' : SequenceGate} {token : Nat} {points : List (Nat × Range)}
    (h : g.cancelFence token points = .ok g') : GateGrows g g' := by
  unfold SequenceGate.cancelFence at h
  split at h
  · cases h
    refine ⟨Nat.le_refl _, fun _ => Nat.le_refl _, ?_, ?_, fun _ hbelow => hbelow⟩
    · intro x hx
      dsimp only
      split
      · split
        · rw [rangeContains_insertRange, hx]
          rfl
        · exact hx
      · exact hx
    · intro lane x hx
      dsimp only
      rw [SequenceGate.rangeContains_cancelOnLanes]
      exact Bool.or_eq_true_iff.mpr (.inl hx)
  · cases h

theorem applyGateOp_grows (ix : StoreIndex) {op : GateOp} (hop : op.Bounded) :
    GateGrows ix.gate (ix.applyGateOp op).gate ∧
      (ix.applyGateOp op).inserted = ix.inserted := by
  cases op with
  | reserve n => exact ⟨.of_same rfl rfl rfl rfl, rfl⟩
  | publish upTo lanes =>
      unfold StoreIndex.applyGateOp
      dsimp only
      cases hpublish : ix.gate.publishOnLanes upTo lanes "publish_then_broadcast_unfenced" with
      | error _ => exact ⟨.refl _, rfl⟩
      | ok gate => exact ⟨publishOnLanes_grows hop hpublish, rfl⟩
  | beginFence =>
      refine ⟨?_, rfl⟩
      change GateGrows ix.gate ix.gate.beginFence.2
      unfold SequenceGate.beginFence
      dsimp only
      split
      · exact .of_same rfl rfl rfl rfl
      · exact .of_same rfl rfl rfl rfl
  | noteProgress token start stop =>
      unfold StoreIndex.applyGateOp
      dsimp only
      cases hnote : ix.gate.noteFenceProgress token start stop with
      | error _ => exact ⟨.refl _, rfl⟩
      | ok gate =>
          unfold SequenceGate.noteFenceProgress at hnote
          split at hnote
          · cases hnote
            exact ⟨.of_same rfl rfl rfl rfl, rfl⟩
          · cases hnote
  | finishFence token publishTo lanes =>
      unfold StoreIndex.applyGateOp
      dsimp only
      cases hfinish : ix.gate.finishFenceOnLanes token publishTo lanes with
      | error _ => exact ⟨.refl _, rfl⟩
      | ok gate =>
          refine ⟨?_, rfl⟩
          unfold SequenceGate.finishFenceOnLanes at hfinish
          split at hfinish
          · cases publishTo with
            | none =>
                cases hfinish
                exact .of_same rfl rfl rfl rfl
            | some upTo =>
                dsimp only at hfinish
                split at hfinish
                · rename_i g' hpublish
                  cases hfinish
                  have hgrows := publishOnLanes_grows hop hpublish
                  exact ⟨hgrows.visible, hgrows.lanes, hgrows.cancelled, hgrows.laneCancelled,
                    hgrows.below⟩
                · cases hfinish
          · cases hfinish
  | cancelFence token =>
      unfold StoreIndex.applyGateOp StoreIndex.cancelVisibilityFence
      dsimp only
      cases hcancel : ix.gate.cancelFence token ix.fenceLanePoints with
      | error _ => exact ⟨.refl _, rfl⟩
      | ok gate => exact ⟨cancelFence_grows hcancel, rfl⟩

/-! ### The index a reader is served from -/

/-- What a region asks of an entry besides visibility. -/
def Region.covers (r : Region) (e : IndexEntry) : Bool :=
  r.matchesEventOnLane e.coord.entity e.coord.scope e.kind (some e.dagLane) &&
    r.inClockRange e.clock

theorem wanted_eq (r : Region) (g : SequenceGate) (e : IndexEntry) :
    ScannedIndex.wanted r g e = (r.covers e && r.shows g e.globalSequence e.dagLane) := rfl

/-- The entry is indexed and a query of the region returns it. -/
def Wants (region : Region) (ix : ScannedIndex) (e : IndexEntry) : Prop :=
  e ∈ ix.index.inserted ∧ ScannedIndex.wanted region ix.index.gate e = true

/-- No id and no sequence is indexed twice, the overlays hold what is indexed, and the lane
of the region shows no more than is shown globally. -/
structure Queryable (region : Region) (ix : ScannedIndex) : Prop where
  scanned : Scanned ix
  sequences : (ix.index.inserted.map (·.globalSequence)).Nodup
  lanes : LaneBelow region ix.index.gate

/-- The index once the swap in progress, if any, is through. -/
def Feed.settled (f : Feed) : ScannedIndex :=
  match f.incoming with
  | none => f.index
  | some (fresh, walk) => f.index.finishSwap walk fresh

/-- Everything in the index with the id of a hit is the event the hit was made from. -/
def Agree (region : Region) (hits : List QueryHit) (entries : List IndexEntry) : Prop :=
  ∀ h ∈ hits, ∀ e ∈ entries, e.eventId = h.eventId →
    e.globalSequence = h.globalSequence ∧ region.covers e = true

/-- What a change of the index must leave alone for a reader that stands at the marks and
has the hits pending. Inserted events are new and lie past the marks; a swap keeps the bound
past the marks, keeps the id, sequence and region of the events that survive it, and shows
nothing at or below a mark that was not shown before. -/
def FeedOk (region : Region) (marks : List Nat) (hits : List QueryHit) (f : Feed) :
    FeedStep → Prop
  | .insert entry =>
      entry.eventId ∉ f.index.index.inserted.map (·.eventId) ∧
        entry.globalSequence ∉ f.index.index.inserted.map (·.globalSequence) ∧
        entry.eventId ∉ hits.map (·.eventId) ∧ ∀ m ∈ marks, m < entry.globalSequence
  | .insertBatch entries =>
      ((entries.reverse ++ f.index.index.inserted).map (·.eventId)).Nodup ∧
        ((entries.reverse ++ f.index.index.inserted).map (·.globalSequence)).Nodup ∧
        ∀ e ∈ entries, e.eventId ∉ hits.map (·.eventId) ∧ ∀ m ∈ marks, m < e.globalSequence
  | .gate op => f.incoming.isNone = true ∧ op.Bounded
  | .swapBegin fresh _ =>
      (fresh.inserted.map (·.eventId)).Nodup ∧ (fresh.inserted.map (·.globalSequence)).Nodup ∧
        fresh.gate.visible ≤ fresh.gate.allocated ∧ LaneBelow region fresh.gate ∧
        Agree region hits fresh.inserted ∧
        ∀ m ∈ marks, m < region.bound fresh.gate ∧
          ∀ x ∈ fresh.inserted, ScannedIndex.wanted region fresh.gate x = true →
            x.globalSequence ≤ m →
            ∃ e ∈ f.index.index.inserted,
              ScannedIndex.wanted region f.index.index.gate e = true ∧
                e.eventId = x.eventId ∧ e.globalSequence = x.globalSequence
  | .swapFinish => True

instance decidableAgree (region : Region) (hits : List QueryHit) (entries : List IndexEntry) :
    Decidable (Agree region hits entries) :=
  inferInstanceAs (Decidable (∀ h ∈ hits, ∀ e ∈ entries, e.eventId = h.eventId → _ ∧ _))

instance decidableFeedOk (region : Region) (marks : List Nat) (hits : List QueryHit) (f : Feed)
    (step : FeedStep) : Decidable (FeedOk region marks hits f step) :=
  match step with
  | .insert _ | .insertBatch _ | .gate _ | .swapBegin _ _ => inferInstanceAs (Decidable (_ ∧ _))
  | .swapFinish => inferInstanceAs (Decidable True)

/-! ### How the index moves under a reader -/

/-- The index changes without anything new at or below a mark. -/
structure Moves (region : Region) (marks : List Nat) (hits : List QueryHit)
    (ix ix' : ScannedIndex) : Prop where
  served : Queryable region ix'
  bound : ∀ m ∈ marks, m < region.bound ix.index.gate → m < region.bound ix'.index.gate
  past : ∀ m ∈ marks, m < region.bound ix.index.gate → ∀ x, Wants region ix' x →
    x.globalSequence ≤ m →
    ∃ e, Wants region ix e ∧ e.eventId = x.eventId ∧ e.globalSequence = x.globalSequence
  agree : Agree region hits ix.index.inserted → Agree region hits ix'.index.inserted

section Moves

variable {region : Region} {marks : List Nat} {hits : List QueryHit} {ix : ScannedIndex}

theorem Moves.refl (h : Queryable region ix) : Moves region marks hits ix ix :=
  ⟨h, fun _ _ hlt => hlt, fun _ _ _ x hx _ => ⟨x, hx, rfl, rfl⟩, fun hagree => hagree⟩

/-- Reserving sequences changes neither bounds nor ranges. -/
theorem moves_entries {ix' : ScannedIndex} (h : Queryable region ix) (entries : List IndexEntry)
    (hscanned : Scanned ix') (hinserted : ix'.index.inserted = entries ++ ix.index.inserted)
    (hgate : GateGrows ix.index.gate ix'.index.gate)
    (hsequences : ((entries ++ ix.index.inserted).map (·.globalSequence)).Nodup)
    (hnew : ∀ e ∈ entries, e.eventId ∉ hits.map (·.eventId) ∧
      ∀ m ∈ marks, m < e.globalSequence) :
    Moves region marks hits ix ix' := by
  refine ⟨⟨hscanned, ?_, hgate.below region h.lanes⟩, ?_, ?_, ?_⟩
  · rw [hinserted]
    exact hsequences
  · intro m _ hlt
    exact Nat.lt_of_lt_of_le hlt (hgate.bound region)
  · intro m hm hlt x hx hle
    obtain ⟨hmem, hwanted⟩ := hx
    rw [hinserted] at hmem
    rcases List.mem_append.mp hmem with hmem | hmem
    · exact absurd ((hnew x hmem).2 m hm) (Nat.not_lt.mpr hle)
    · refine ⟨x, ⟨hmem, ?_⟩, rfl, rfl⟩
      rw [wanted_eq, Bool.and_eq_true] at hwanted ⊢
      exact ⟨hwanted.1, hgate.shows (Nat.lt_of_le_of_lt hle hlt) hwanted.2⟩
  · intro hagree hit hhit e he hid
    rw [hinserted] at he
    rcases List.mem_append.mp he with he | he
    · exact absurd (List.mem_map.mpr ⟨hit, hhit, hid.symm⟩) (hnew e he).1
    · exact hagree hit hhit e he hid

/-- The gate a swap leaves shows what the fresh gate shows. -/
theorem shows_replaced (ix : StoreIndex) (fresh : StoreIndex) (r : Region)
    (sequence dagLane : Nat) :
    r.shows (ix.replaceContentsFromFresh fresh).gate sequence dagLane =
      r.shows fresh.gate sequence dagLane := by
  unfold Region.shows
  cases r.lane with
  | none =>
      change (decide (sequence < fresh.gate.visible) &&
        !rangeContains (SequenceGate.rebuildRanges fresh.gate.cancelledRanges) sequence) = _
      rw [SequenceGate.rangeContains_rebuildRanges]
      rfl
  | some lane =>
      change (dagLane == lane && (decide (sequence < fresh.gate.laneVisible lane) &&
        !rangeContains (SequenceGate.rebuildRanges fresh.gate.cancelledRanges) sequence &&
        !rangeContains (SequenceGate.rebuildRanges (fresh.gate.laneCancelledRanges lane))
          sequence)) = _
      rw [SequenceGate.rangeContains_rebuildRanges, SequenceGate.rangeContains_rebuildRanges]
      rfl

theorem moves_swap {f : Feed} {fresh : StoreIndex} {walk : Walk} (h : Queryable region f.index)
    (hok : FeedOk region marks hits f (.swapBegin fresh walk)) :
    Moves region marks hits f.index (f.index.replaceContentsFromFresh walk fresh) := by
  obtain ⟨hids, hsequences, -, hlanes, hagree, hpast⟩ := hok
  have hbound : region.bound (f.index.replaceContentsFromFresh walk fresh).index.gate =
      region.bound fresh.gate := by
    unfold Region.bound
    cases region.lane with
    | none => rfl
    | some lane => rfl
  refine ⟨⟨?_, hsequences, hlanes⟩, ?_, ?_, fun _ => hagree⟩
  · exact @scanned_step _ (.swap fresh walk) h.scanned hids
  · intro m hm _
    rw [hbound]
    exact (hpast m hm).1
  · intro m hm _ x hx hle
    obtain ⟨hmem, hwanted⟩ := hx
    rw [wanted_eq, show (f.index.replaceContentsFromFresh walk fresh).index =
      f.index.index.replaceContentsFromFresh fresh from rfl, shows_replaced, ← wanted_eq] at hwanted
    obtain ⟨e, he, hwant, hid, hseq⟩ := (hpast m hm).2 x hmem hwanted hle
    exact ⟨e, ⟨he, hwant⟩, hid, hseq⟩

/-- Every admissible change of the index moves what a reader is served from without
anything new at or below its marks. -/
theorem feed_moves {f : Feed} {step : FeedStep} (h : Queryable region f.settled)
    (hok : FeedOk region marks hits f step) :
    Moves region marks hits f.settled (feedStep f step).settled := by
  obtain ⟨index, incoming⟩ := f
  cases step with
  | insert entry =>
      cases incoming with
      | some _ => exact .refl h
      | none =>
          obtain ⟨hid, hseq, hhit, hpast⟩ := hok
          refine moves_entries h [entry] ?_ rfl (.of_same rfl rfl rfl rfl) ?_ ?_
          · exact @scanned_step _ (.insert entry) h.scanned hid
          · exact List.nodup_cons.mpr ⟨hseq, h.sequences⟩
          · intro e he
            rw [List.mem_singleton.mp he]
            exact ⟨hhit, hpast⟩
  | insertBatch entries =>
      cases incoming with
      | some _ => exact .refl h
      | none =>
          obtain ⟨hids, hseqs, hnew⟩ := hok
          have hindex := insertBatch_eq index entries
          have hinserted : (index.insertBatch entries).index.inserted =
              entries.reverse ++ index.index.inserted := by
            rw [hindex]
            exact StoreIndex.insertBatch_inserted index.index entries
          have hgate : (index.insertBatch entries).index.gate = index.index.gate := by
            rw [hindex]
            exact StoreIndex.insertBatch_gate index.index entries
          refine moves_entries h entries.reverse ?_ hinserted ?_ hseqs ?_
          · exact @scanned_step _ (.insertBatch entries) h.scanned hids
          · change GateGrows index.index.gate (index.insertBatch entries).index.gate
            rw [hgate]
            exact .refl _
          · intro e he
            exact hnew e (List.mem_reverse.mp he)
  | gate op =>
      obtain ⟨hnone, hop⟩ := hok
      cases incoming with
      | some _ => cases hnone
      | none =>
          obtain ⟨hgrows, hinserted⟩ := applyGateOp_grows index.index hop
          have hscanned : Scanned ⟨index.index.applyGateOp op, index.scan⟩ := by
            refine ⟨?_, ?_⟩
            · dsimp only
              rw [hinserted]
              exact h.scanned.ids
            · dsimp only
              rw [hinserted]
              exact h.scanned.scan
          exact moves_entries h [] hscanned hinserted hgrows h.sequences (by simp)
  | swapBegin fresh walk =>
      cases incoming with
      | some _ => exact .refl h
      | none =>
          have hmoves := moves_swap h hok
          rw [← ScannedIndex.finishSwap_beginSwap walk index hok.2.2.1] at hmoves
          exact hmoves
  | swapFinish =>
      cases incoming with
      | some _ => exact .refl h
      | none => exact .refl h

end Moves

/-! ### A reader in the middle of a poll -/

/-- The account of a reader that started past `base`: what it has taken and what is pending
ascends, lies past the base and up to the position, and includes every event that is wanted
there. -/
structure Reading (base : Option Nat) (ix : ScannedIndex) (r : Reader) : Prop where
  ascending : (r.taken.map (·.globalSequence) ++ r.pending.map (·.globalSequence)).Pairwise (· < ·)
  reached : ∀ s ∈ r.taken.map (·.globalSequence) ++ r.pending.map (·.globalSequence),
    r.cursor.started = true ∧ s ≤ r.cursor.position ∧ ∀ b ∈ base, b < s
  based : ∀ b ∈ base, r.cursor.started = true ∧ b ≤ r.cursor.position
  bound : r.cursor.started = true → r.cursor.position < r.cursor.region.bound ix.index.gate
  agree : Agree r.cursor.region r.pending ix.index.inserted
  covered : ∀ e ∈ r.taken, r.cursor.region.covers e = true
  complete : r.cursor.started = true → ∀ e, Wants r.cursor.region ix e →
    e.globalSequence ≤ r.cursor.position → (∀ b ∈ base, b < e.globalSequence) →
    (∃ x ∈ r.taken, x.eventId = e.eventId ∧ x.globalSequence = e.globalSequence) ∨
      ∃ h ∈ r.pending, h.eventId = e.eventId ∧ h.globalSequence = e.globalSequence

/-- Where the reader stands. -/
def Reader.marks (r : Reader) : List Nat :=
  if r.cursor.started then [r.cursor.position] else []

theorem mem_marks {r : Reader} (h : r.cursor.started = true) : r.cursor.position ∈ r.marks := by
  unfold Reader.marks
  rw [if_pos h]
  exact List.mem_cons_self

namespace Reading

variable {base : Option Nat} {ix ix' : ScannedIndex} {r : Reader}

/-- Nothing has been taken or is pending, and the cursor stands at the base. -/
theorem idle {c : Cursor} (hbase : base = if c.started then some c.position else none)
    (hbound : c.started = true → c.position < c.region.bound ix.index.gate) :
    Reading base ix (.idle c) := by
  refine ⟨List.Pairwise.nil, ?_, ?_, hbound, ?_, ?_, ?_⟩
  · intro s hs
    cases hs
  · intro b hb
    rw [hbase] at hb
    split at hb
    · rename_i hstarted
      cases hb
      exact ⟨hstarted, Nat.le_refl _⟩
    · cases hb
  · intro h hh
    cases hh
  · intro e he
    cases he
  · intro hstarted e _ hle hpast
    rw [hbase, if_pos (show c.started = true from hstarted)] at hpast
    exact absurd (hpast c.position rfl) (Nat.not_lt.mpr hle)

theorem moves {marks : List Nat} {hits : List QueryHit} (h : Reading base ix r)
    (hmoves : Moves r.cursor.region marks hits ix ix') (hmarks : ∀ m ∈ r.marks, m ∈ marks)
    (hhits : ∀ x ∈ r.pending, x ∈ hits)
    (hagree : Agree r.cursor.region hits ix.index.inserted) : Reading base ix' r where
  ascending := h.ascending
  reached := h.reached
  based := h.based
  bound hstarted := hmoves.bound _ (hmarks _ (mem_marks hstarted)) (h.bound hstarted)
  agree x hx := hmoves.agree hagree x (hhits x hx)
  covered := h.covered
  complete := by
    intro hstarted e he hle hpast
    obtain ⟨e', he', hid, hseq⟩ := hmoves.past _ (hmarks _ (mem_marks hstarted))
      (h.bound hstarted) e he hle
    rw [← hid, ← hseq]
    rw [← hseq] at hle hpast
    exact h.complete hstarted e' he' hle hpast

/-! #### The hit query -/

/-- The entry behind a hit of a query. -/
theorem hit_entry (hserved : Queryable region ix) {walk : Walk} {position max : Nat}
    {started : Bool} (hhit : hit ∈ ix.queryHitsAfter walk region position started max) :
    ∃ e, Wants region ix e ∧ hit = .fromEntry e ∧
      (started = true → position < e.globalSequence) := by
  have hsmallest := hserved.scanned.queryHitsAfter_smallest walk region position started max
  obtain ⟨e, he, rfl⟩ := List.mem_map.mp (hsmallest.mem hhit)
  obtain ⟨hmem, hwanted⟩ := List.mem_filter.mp he
  rw [Bool.and_eq_true] at hwanted
  refine ⟨e, ⟨hmem, hwanted.1⟩, rfl, ?_⟩
  intro hstarted
  rw [hstarted] at hwanted
  exact of_decide_eq_true hwanted.2

theorem nodup_wantedAfter (hserved : Queryable region ix) (position : Nat) (started : Bool) :
    (((Scanned.wantedAfter ix region position started).map QueryHit.fromEntry).map
      QueryHit.globalSequence).Nodup := by
  rw [List.map_map]
  exact hserved.sequences.sublist (List.filter_sublist.map _)

/-- An event past the position is among the hits or past all of them. -/
theorem wants_hit (hserved : Queryable region ix) (walk : Walk) (max : Nat) {position : Nat}
    {started : Bool} (he : Wants region ix e) (hpast : started = true → position < e.globalSequence) :
    .fromEntry e ∈ ix.queryHitsAfter walk region position started max ∨
      ∀ hit ∈ ix.queryHitsAfter walk region position started max,
        hit.globalSequence < e.globalSequence := by
  have hsmallest := hserved.scanned.queryHitsAfter_smallest walk region position started max
  apply hsmallest.mem_or_lt (nodup_wantedAfter hserved position started)
  apply List.mem_map_of_mem
  apply List.mem_filter.mpr
  refine ⟨he.1, ?_⟩
  rw [he.2, Bool.true_and]
  cases hstarted : started with
  | false => rfl
  | true => exact decide_eq_true (hpast hstarted)

theorem query (hserved : Queryable r.cursor.region ix) (h : Reading base ix r) (hidle : r.pending = [])
    (walk : Walk) (max : Nat) : Reading base ix (r.query walk ix max) := by
  unfold Reader.query
  dsimp only
  generalize hq : ix.queryHitsAfter walk r.cursor.region r.cursor.position r.cursor.started max =
    hits
  cases hlast : hits.getLast? with
  | none => exact h
  | some last =>
      have hascending : hits.Pairwise fun a b => a.globalSequence < b.globalSequence := by
        have hsmallest := hserved.scanned.queryHitsAfter_smallest walk r.cursor.region
          r.cursor.position r.cursor.started max
        rw [hq] at hsmallest
        exact hsmallest.strict (nodup_wantedAfter hserved _ _)
      have hentry : ∀ hit ∈ hits, ∃ e, Wants r.cursor.region ix e ∧ hit = .fromEntry e ∧
          (r.cursor.started = true → r.cursor.position < e.globalSequence) := by
        intro hit hhit
        rw [← hq] at hhit
        exact hit_entry hserved hhit
      have hmem : last ∈ hits := List.mem_of_getLast? hlast
      have htop : ∀ hit ∈ hits, hit.globalSequence ≤ last.globalSequence := by
        intro hit hhit
        rw [List.getLast?_eq_some_iff] at hlast
        obtain ⟨front, rfl⟩ := hlast
        rcases List.mem_append.mp hhit with hhit | hhit
        · exact Nat.le_of_lt
            ((List.pairwise_append.mp hascending).2.2 hit hhit last List.mem_cons_self)
        · rw [List.mem_singleton.mp hhit]
      have hpast : ∀ s ∈ r.taken.map (·.globalSequence), ∀ hit ∈ hits,
          s < hit.globalSequence := by
        intro s hs hit hhit
        obtain ⟨hstarted, hle, -⟩ := h.reached s (List.mem_append_left _ hs)
        obtain ⟨e, -, rfl, hlt⟩ := hentry hit hhit
        exact Nat.lt_of_le_of_lt hle (hlt hstarted)
      have hbase : ∀ hit ∈ hits, ∀ b ∈ base, b < hit.globalSequence := by
        intro hit hhit b hb
        obtain ⟨e, -, rfl, hlt⟩ := hentry hit hhit
        obtain ⟨hstarted, hle⟩ := h.based b hb
        exact Nat.lt_of_le_of_lt hle (hlt hstarted)
      have htaken := (List.pairwise_append.mp h.ascending).1
      refine ⟨?_, ?_, ?_, ?_, ?_, h.covered, ?_⟩
      · apply List.pairwise_append.mpr
        refine ⟨htaken, List.pairwise_map.mpr hascending, ?_⟩
        intro s hs t ht
        obtain ⟨hit, hhit, rfl⟩ := List.mem_map.mp ht
        exact hpast s hs hit hhit
      · intro s hs
        refine ⟨rfl, ?_⟩
        rcases List.mem_append.mp hs with hs | hs
        · exact ⟨Nat.le_of_lt (hpast s hs last hmem),
            (h.reached s (List.mem_append_left _ hs)).2.2⟩
        · obtain ⟨hit, hhit, rfl⟩ := List.mem_map.mp hs
          exact ⟨htop hit hhit, hbase hit hhit⟩
      · intro b hb
        exact ⟨rfl, Nat.le_of_lt (hbase last hmem b hb)⟩
      · intro _
        obtain ⟨e, he, rfl, -⟩ := hentry last hmem
        have hwanted := he.2
        rw [wanted_eq, Bool.and_eq_true] at hwanted
        exact lt_bound_of_shows hwanted.2
      · intro hit hhit e he hid
        obtain ⟨e', he', rfl, -⟩ := hentry hit hhit
        have heq : e = e' := eq_of_eventId hserved.scanned.ids he he'.1 hid
        subst heq
        have hwanted := he'.2
        rw [wanted_eq, Bool.and_eq_true] at hwanted
        exact ⟨rfl, hwanted.1⟩
      · intro _ e he hle hnew
        by_cases hold : r.cursor.started = true ∧ e.globalSequence ≤ r.cursor.position
        · rcases h.complete hold.1 e he hold.2 hnew with htaken | hpending
          · exact .inl htaken
          · obtain ⟨x, hx, -⟩ := hpending
            rw [hidle] at hx
            cases hx
        · have hahead : r.cursor.started = true → r.cursor.position < e.globalSequence :=
            fun hstarted => Nat.lt_of_not_le fun hle' => hold ⟨hstarted, hle'⟩
          have hhit := wants_hit hserved walk max he hahead
          rw [hq] at hhit
          rcases hhit with hhit | hbeyond
          · exact .inr ⟨_, hhit, rfl, rfl⟩
          · exact absurd (hbeyond last hmem) (Nat.not_lt.mpr hle)

/-! #### The upgrade of a hit -/

theorem mem_of_upgradeHit (h : ix.upgradeHit hit = some e) :
    e ∈ ix.index.inserted ∧ e.eventId = hit.eventId := by
  obtain ⟨hfind, -⟩ := Option.filter_eq_some_iff.mp h
  unfold StoreIndex.byId at hfind
  have hid := List.find?_some hfind
  exact ⟨List.mem_of_find?_eq_some hfind, beq_iff_eq.mp hid⟩

/-- A wanted event survives the upgrade of its hit. -/
theorem upgradeHit_of_wants (hserved : Queryable region ix) (he : Wants region ix e)
    (hid : hit.eventId = e.eventId) :
    ix.upgradeHit hit = some e := by
  have hwanted := he.2
  rw [wanted_eq, Bool.and_eq_true] at hwanted
  unfold ScannedIndex.upgradeHit
  rw [hid, byId_of_mem hserved.scanned.ids he.1]
  exact Option.filter_eq_some_iff.mpr ⟨rfl, isVisible_of_shows hserved.lanes hwanted.2⟩

/-- A hit of no wanted event may go. -/
theorem drop {rest : List QueryHit} (h : Reading base ix r) (hpending : r.pending = hit :: rest)
    (hnone : ∀ e, Wants r.cursor.region ix e → hit.eventId ≠ e.eventId) :
    Reading base ix { r with pending := rest } := by
  have hrest : rest.Sublist r.pending := by
    rw [hpending]
    exact List.sublist_cons_self _ _
  have hsub := (hrest.map (·.globalSequence)).append_left (r.taken.map (·.globalSequence))
  refine ⟨h.ascending.sublist hsub, fun s hs => h.reached s (hsub.subset hs), h.based, h.bound,
    fun x hx => h.agree x (hrest.subset hx), h.covered, ?_⟩
  intro hstarted e he hle hnew
  rcases h.complete hstarted e he hle hnew with htaken | ⟨x, hx, hid, hseq⟩
  · exact .inl htaken
  · rw [hpending] at hx
    rcases List.mem_cons.mp hx with rfl | hx
    · exact absurd hid (hnone e he)
    · exact .inr ⟨x, hx, hid, hseq⟩

/-- The entry of a hit takes its place. -/
theorem take {rest : List QueryHit} {entry : IndexEntry} (h : Reading base ix r)
    (hpending : r.pending = hit :: rest) (hentry : entry ∈ ix.index.inserted)
    (hid : entry.eventId = hit.eventId) :
    Reading base ix { r with pending := rest, taken := r.taken ++ [entry] } := by
  have hmem : hit ∈ r.pending := by
    rw [hpending]
    exact List.mem_cons_self
  have hrest : ∀ x ∈ rest, x ∈ r.pending := by
    intro x hx
    rw [hpending]
    exact List.mem_cons_of_mem _ hx
  obtain ⟨hseq, hcovers⟩ := h.agree hit hmem entry hentry hid
  have hsame : (r.taken ++ [entry]).map (·.globalSequence) ++ rest.map (·.globalSequence) =
      r.taken.map (·.globalSequence) ++ r.pending.map (·.globalSequence) := by
    rw [hpending, List.map_append, List.append_assoc, List.map_cons, List.map_cons, hseq]
    rfl
  refine ⟨?_, ?_, h.based, h.bound, fun x hx => h.agree x (hrest x hx), ?_, ?_⟩
  · dsimp only
    rw [hsame]
    exact h.ascending
  · dsimp only
    rw [hsame]
    exact h.reached
  · intro e he
    rcases List.mem_append.mp he with he | he
    · exact h.covered e he
    · rw [List.mem_singleton.mp he]
      exact hcovers
  · intro hstarted e he hle hnew
    rcases h.complete hstarted e he hle hnew with ⟨x, hx, hkey⟩ | ⟨x, hx, hid', hseq'⟩
    · exact .inl ⟨x, List.mem_append_left _ hx, hkey⟩
    · rw [hpending] at hx
      rcases List.mem_cons.mp hx with rfl | hx
      · exact .inl ⟨entry, List.mem_append_right _ List.mem_cons_self,
          hid.trans hid', hseq.trans hseq'⟩
      · exact .inr ⟨x, hx, hid', hseq'⟩

theorem upgrade (hserved : Queryable r.cursor.region ix) (h : Reading base ix r) :
    Reading base ix (r.upgrade ix) := by
  unfold Reader.upgrade
  cases hpending : r.pending with
  | nil => exact h
  | cons hit rest =>
      dsimp only
      cases hup : ix.upgradeHit hit with
      | none =>
          rw [Option.toList_none, List.append_nil]
          apply h.drop hpending
          intro e he hid
          rw [upgradeHit_of_wants hserved he hid] at hup
          cases hup
      | some entry =>
          obtain ⟨hentry, hid⟩ := mem_of_upgradeHit hup
          exact h.take hpending hentry hid

end Reading

end Batpak.Store
