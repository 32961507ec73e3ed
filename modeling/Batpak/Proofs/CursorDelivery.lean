/-
Module: Batpak.Proofs.CursorDelivery
Purpose: What a cursor returns over any run of polls interleaved with appends, publishes, fences
  and compaction swaps.
Trusted boundary: none (fully proved)
Main exports: Drained, delivery_complete
-/
import Batpak.Proofs.CursorReading

namespace Batpak.Store

open Batpak.Util

/-! ### The account of a whole run -/

/-- The index changes as a reader at its position can bear, and no hit is upgraded while the
index is cleared for a swap. -/
def Undisturbed (d : Delivery) : DeliveryStep → Prop
  | .feed step => FeedOk d.reader.cursor.region d.reader.marks d.reader.pending d.feed step
  | .query _ _ => True
  | .upgrade => d.feed.incoming.isNone = true

instance decidableUndisturbed (d : Delivery) (step : DeliveryStep) :
    Decidable (Undisturbed d step) :=
  match step with
  | .feed step => decidableFeedOk _ _ _ _ step
  | .query _ _ => inferInstanceAs (Decidable True)
  | .upgrade => inferInstanceAs (Decidable (_ = true))

/-- A cursor that started at the beginning has accounted for everything up to its position. -/
structure Delivering (region : Region) (d : Delivery) : Prop where
  reads : d.reader.cursor.region = region
  queryable : Queryable region d.feed.settled
  reading : Reading none d.feed.settled d.reader

namespace Delivering

variable {region : Region} {d : Delivery}

theorem region_query (walk : Walk) (r : Reader) (ix : ScannedIndex) (max : Nat) :
    (r.query walk ix max).cursor.region = r.cursor.region := by
  unfold Reader.query
  dsimp only
  split
  · rfl
  · rfl

theorem region_upgrade (r : Reader) (ix : ScannedIndex) :
    (r.upgrade ix).cursor.region = r.cursor.region := by
  unfold Reader.upgrade
  split
  · rfl
  · rfl

theorem feed (h : Delivering region d) {step : FeedStep}
    (hok : Undisturbed d (.feed step)) : Delivering region (deliveryStep d (.feed step)) := by
  obtain ⟨rfl, hqueryable, hreading⟩ := h
  have hmoves := feed_moves hqueryable hok
  exact ⟨rfl, hmoves.served,
    hreading.moves hmoves (fun _ hm => hm) (fun _ hx => hx) hreading.agree⟩

theorem query (h : Delivering region d) (walk : Walk) (max : Nat) :
    Delivering region (deliveryStep d (.query walk max)) := by
  obtain ⟨⟨index, incoming⟩, reader⟩ := d
  unfold deliveryStep
  dsimp only
  split
  · exact h
  · rename_i hfree
    simp only [Bool.or_eq_true, not_or, Bool.not_eq_true, Bool.not_eq_false'] at hfree
    obtain ⟨hsome, hempty⟩ := hfree
    cases incoming with
    | some _ => cases hsome
    | none =>
        obtain ⟨rfl, hqueryable, hreading⟩ := h
        exact ⟨region_query walk reader index max, hqueryable,
          hreading.query hqueryable (List.isEmpty_iff.mp hempty) walk max⟩

theorem upgrade (h : Delivering region d) (hok : Undisturbed d .upgrade) :
    Delivering region (deliveryStep d .upgrade) := by
  obtain ⟨⟨index, incoming⟩, reader⟩ := d
  cases incoming with
  | some _ => cases hok
  | none =>
      obtain ⟨rfl, hqueryable, hreading⟩ := h
      exact ⟨region_upgrade reader index, hqueryable, hreading.upgrade hqueryable⟩

theorem step (d : Delivery) (step : DeliveryStep) (h : Delivering region d)
    (hok : Undisturbed d step) : Delivering region (deliveryStep d step) := by
  cases step with
  | feed step => exact h.feed hok
  | query walk max => exact h.query walk max
  | upgrade => exact h.upgrade hok

end Delivering

/-! ### Completeness -/

/-- No poll is under way, no swap either, and a poll finds nothing. -/
def Drained (d : Delivery) : Prop :=
  d.feed.incoming.isNone = true ∧ d.reader.pending = [] ∧
    ∃ walk max, 0 < max ∧ d.feed.index.queryHitsAfter walk d.reader.cursor.region
      d.reader.cursor.position d.reader.cursor.started max = []

/-- In a list that ascends strictly, what occurs occurs once. -/
theorem countP_eq_one {taken : List IndexEntry} {e : IndexEntry}
    (hascending : (taken.map (·.globalSequence)).Pairwise (· < ·))
    (hmem : ∃ x ∈ taken, x.eventId = e.eventId ∧ x.globalSequence = e.globalSequence) :
    taken.countP (fun x => x.eventId = e.eventId ∧ x.globalSequence = e.globalSequence) = 1 := by
  have hnodup : (taken.map (·.globalSequence)).Nodup :=
    hascending.imp fun hlt => Nat.ne_of_lt hlt
  have hmost : taken.countP (fun x => x.eventId = e.eventId ∧
      x.globalSequence = e.globalSequence) ≤ 1 := by
    calc taken.countP (fun x => x.eventId = e.eventId ∧ x.globalSequence = e.globalSequence)
        ≤ taken.countP (fun x => x.globalSequence == e.globalSequence) := by
          apply List.countP_mono_left
          intro x _ hx
          exact beq_iff_eq.mpr (of_decide_eq_true hx).2
      _ = (taken.map (·.globalSequence)).count e.globalSequence := by
          rw [List.count, List.countP_map]
          rfl
      _ ≤ 1 := List.nodup_iff_count_le_one.mp hnodup _
  obtain ⟨x, hx, hkey⟩ := hmem
  have hleast : 0 < taken.countP (fun x => x.eventId = e.eventId ∧
      x.globalSequence = e.globalSequence) :=
    List.countP_pos_iff.mpr ⟨x, hx, decide_eq_true hkey⟩
  omega

theorem Delivering.complete {region : Region} {d : Delivery} (h : Delivering region d)
    (hdrained : Drained d) {e : IndexEntry} (he : Wants region d.feed.index e) :
    d.reader.taken.countP
      (fun x => x.eventId = e.eventId ∧ x.globalSequence = e.globalSequence) = 1 := by
  obtain ⟨hincoming, hpending, walk, max, hmax, hnothing⟩ := hdrained
  have hsettled : d.feed.settled = d.feed.index := by
    unfold Feed.settled
    cases hin : d.feed.incoming with
    | none => rfl
    | some _ =>
        rw [hin] at hincoming
        cases hincoming
  obtain ⟨rfl, hqueryable, hreading⟩ := h
  rw [hsettled] at hqueryable hreading
  have hascending := hreading.ascending
  rw [hpending, List.map_nil, List.append_nil] at hascending
  apply countP_eq_one hascending
  -- nothing wanted lies past the position, or the last query would have found it
  have hreached : d.reader.cursor.started = true ∧ e.globalSequence ≤ d.reader.cursor.position := by
    by_contra hpast
    have hahead : d.reader.cursor.started = true →
        d.reader.cursor.position < e.globalSequence :=
      fun hstarted => Nat.lt_of_not_le fun hle => hpast ⟨hstarted, hle⟩
    have hsmallest := hqueryable.scanned.queryHitsAfter_smallest walk d.reader.cursor.region
      d.reader.cursor.position d.reader.cursor.started max
    have hempty := List.map_eq_nil_iff.mp (hsmallest.eq_nil hmax hnothing)
    have hmem : e ∈ Scanned.wantedAfter d.feed.index d.reader.cursor.region
        d.reader.cursor.position d.reader.cursor.started := by
      apply List.mem_filter.mpr
      refine ⟨he.1, ?_⟩
      rw [he.2, Bool.true_and]
      cases hstarted : d.reader.cursor.started with
      | false => rfl
      | true => exact decide_eq_true (hahead hstarted)
    rw [hempty] at hmem
    cases hmem
  rcases hreading.complete hreached.1 e he hreached.2 (fun b hb => by cases hb) with
    htaken | ⟨x, hx, -⟩
  · exact htaken
  · rw [hpending] at hx
    cases hx

/-- A cursor at its beginning. -/
def startCursor (region : Region) (ix : ScannedIndex) : Delivery :=
  ⟨⟨ix, none⟩, .idle (.new region)⟩

/-- Along every run whose steps leave the reader undisturbed, on an index that was filled in
any way, everything the cursor returns ascends strictly and lies in the region, and once it
has drained it has returned every visible event of the region that is in the store exactly
once. -/
theorem delivery_complete (region : Region) (topology : IndexTopology)
    (retention : IdempotencyRetention) (overflow : OverflowPolicy)
    (filled : List ScannedIndex.ScanStep)
    (hfilled : Guarded ScannedIndex.scanStep FreshIds (.new topology retention overflow) filled)
    (ix : ScannedIndex)
    (hix : ix = run ScannedIndex.scanStep (.new topology retention overflow) filled)
    (hsequences : (ix.index.inserted.map (·.globalSequence)).Nodup)
    (hlane : LaneBelow region ix.index.gate) (steps : List DeliveryStep)
    (hsteps : Guarded deliveryStep Undisturbed (startCursor region ix) steps) :
    let d := run deliveryStep (startCursor region ix) steps
    (d.reader.taken.map (·.globalSequence)).Pairwise (· < ·) ∧
      (∀ e ∈ d.reader.taken, region.covers e = true) ∧
      (Drained d → ∀ e, Wants region d.feed.index e →
        d.reader.taken.countP
          (fun x => x.eventId = e.eventId ∧ x.globalSequence = e.globalSequence) = 1) := by
  intro d
  have hscanned : Scanned ix := by
    rw [hix]
    exact run_invariant (fun _ _ => scanned_step) filled _ (scanned_new _ _ _) hfilled
  have hstart : Delivering region (startCursor region ix) :=
    ⟨rfl, ⟨hscanned, hsequences, hlane⟩, .idle rfl fun h => by cases h⟩
  have hd : Delivering region d := run_invariant Delivering.step steps _ hstart hsteps
  refine ⟨(List.pairwise_append.mp hd.reading.ascending).1, ?_, fun hdrained e he =>
    hd.complete hdrained he⟩
  rw [← hd.reads]
  exact hd.reading.covered

/-! ### A swap around a poll, and inside one -/

def emptyIndex : ScannedIndex :=
  .new everyOverlay .unbounded .warn

/-- Publish on the first lane. -/
def publishTo (upTo : Nat) : FeedStep :=
  .gate (.publish upTo [(0, upTo)])

/-- The index a compaction of one event rebuilds. -/
def rebuiltOne : StoreIndex :=
  (StoreIndex.new .unbounded .warn).restoreSortedEntries [laneEvent 7 0 0 0] 1

/-- An event is polled, the store is compacted, and another event is polled. -/
def pollSwapPoll : List DeliveryStep :=
  [.feed (.insert (laneEvent 7 0 0 0)), .feed (publishTo 1), .query .inOrder 8, .upgrade,
    .feed (.swapBegin rebuiltOne .inOrder), .feed .swapFinish,
    .feed (.insert (laneEvent 8 1 0 1)), .feed (publishTo 2), .query .inOrder 8, .upgrade]

theorem both_events_delivered :
    (run deliveryStep (startCursor .all emptyIndex) pollSwapPoll).reader.taken.countP
      (fun x => x.eventId = 8 ∧ x.globalSequence = 1) = 1 := by
  have hsteps : Guarded deliveryStep Undisturbed (startCursor .all emptyIndex)
      pollSwapPoll := by
    decide +kernel
  have hdrained : Drained (run deliveryStep (startCursor .all emptyIndex) pollSwapPoll) :=
    ⟨by decide +kernel, by decide +kernel, .inOrder, 1, by decide, by decide +kernel⟩
  exact (delivery_complete .all everyOverlay .unbounded .warn [] trivial emptyIndex rfl
    (by decide) (by decide +kernel) pollSwapPoll hsteps).2.2 hdrained (laneEvent 8 1 0 1)
      ⟨by decide +kernel, by decide +kernel⟩

/-- The compaction lands between the hit query and the upgrade of the hit. -/
def swapInsidePoll : List DeliveryStep :=
  [.feed (.insert (laneEvent 7 0 0 0)), .feed (publishTo 1), .query .inOrder 8,
    .feed (.swapBegin rebuiltOne .inOrder), .upgrade, .feed .swapFinish]

/-- The event is in the store, visible and in the region; the cursor has drained and has
returned nothing. -/
theorem swap_inside_poll_loses :
    let d := run deliveryStep (startCursor .all emptyIndex) swapInsidePoll
    (laneEvent 7 0 0 0 ∈ d.feed.index.index.inserted ∧
        ScannedIndex.wanted .all d.feed.index.index.gate (laneEvent 7 0 0 0) = true) ∧
      (d.feed.incoming.isNone = true ∧ d.reader.pending = [] ∧
        d.feed.index.queryHitsAfter .inOrder d.reader.cursor.region
          d.reader.cursor.position d.reader.cursor.started 1 = []) ∧
      d.reader.taken = [] := by
  decide +kernel

end Batpak.Store
