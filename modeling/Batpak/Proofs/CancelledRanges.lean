/-
Module: Batpak.Proofs.CancelledRanges
Purpose: A list of cancelled ranges means the union of what was inserted, whether it was kept
  by the gate, normalised for the file, or read back from it.
Trusted boundary: none
Main exports: loadCancelledRanges_written, cancelled_ranges_mean_union
-/
import Batpak.Store.HiddenRanges
import Batpak.Util.Run

namespace Batpak.Store

open Batpak.Util

variable {lanes : List (Nat × List Range)}

/-! ### The kept list -/

inductive RangeCall where
  | insertCancelledRange (start stop : Nat)
  | restoreCancelledRanges (ranges : List Range)
  deriving Repr, DecidableEq

/-- The kept list after a call. -/
def keptRanges (kept : List Range) : RangeCall → List Range
  | .insertCancelledRange start stop => insertRange kept start stop
  | .restoreCancelledRanges ranges => SequenceGate.rebuildRanges ranges

/-- The ranges inserted since the last restore, and those it restored. -/
def insertedRanges (inserted : List Range) : RangeCall → List Range
  | .insertCancelledRange start stop => inserted ++ [(start, stop)]
  | .restoreCancelledRanges ranges => ranges

theorem separated_foldl_insertRange {built : List Range} (h : Separated built)
    (ranges : List Range) : Separated (ranges.foldl (fun acc r => insertRange acc r.1 r.2) built) := by
  induction ranges generalizing built with
  | nil => exact h
  | cons r rest ih => exact ih (h.insertRange r.1 r.2)

/-- Kept and inserted ranges move together. -/
theorem rangeCall_run (calls : List RangeCall) : ∀ kept inserted : List Range, Separated kept →
    (∀ x, rangeContains kept x = rangeContains inserted x) →
    Separated (run keptRanges kept calls) ∧ ∀ x,
      rangeContains (run keptRanges kept calls) x =
        rangeContains (run insertedRanges inserted calls) x := by
  induction calls with
  | nil => exact fun kept inserted hsep hsame => ⟨hsep, hsame⟩
  | cons call calls ih =>
      intro kept inserted hsep hsame
      cases call with
      | insertCancelledRange start stop =>
          apply ih _ _ (hsep.insertRange start stop)
          intro x
          change rangeContains (insertRange kept start stop) x =
            rangeContains (inserted ++ [(start, stop)]) x
          rw [rangeContains_insertRange, hsame, rangeContains, rangeContains, List.any_append]
          simp
      | restoreCancelledRanges ranges =>
          exact ih _ _ (separated_foldl_insertRange ⟨by simp, .nil⟩ ranges)
            (SequenceGate.rangeContains_rebuildRanges ranges)

/-- Two runs of calls keep the same list exactly when they cancelled the same sequences, in
whatever order and pieces. -/
theorem kept_ranges_eq_iff (calls calls' : List RangeCall) :
    run keptRanges [] calls = run keptRanges [] calls' ↔
      ∀ x, rangeContains (run insertedRanges [] calls) x =
        rangeContains (run insertedRanges [] calls') x := by
  obtain ⟨hsep, hsame⟩ := rangeCall_run calls [] [] ⟨by simp, .nil⟩ fun _ => rfl
  obtain ⟨hsep', hsame'⟩ := rangeCall_run calls' [] [] ⟨by simp, .nil⟩ fun _ => rfl
  constructor
  · intro h x
    rw [← hsame, ← hsame', h]
  · intro h
    exact hsep.ext hsep' fun x => (hsame x).trans ((h x).trans (hsame' x).symm)

/-! ### Normalising -/

theorem normalizeRanges_ok {ranges out : List Range} (h : normalizeRanges ranges = .ok out) :
    Separated out ∧ (∀ x, rangeContains out x = rangeContains ranges x) ∧
      ∀ r ∈ out, ∃ s ∈ ranges, r.2 = s.2 := by
  unfold normalizeRanges at h
  cases hfind : ranges.find? fun r => decide (r.2 ≤ r.1) with
  | some r =>
      rw [hfind] at h
      cases h
  | none =>
      rw [hfind] at h
      cases h
      have hnonempty : ∀ r ∈ ranges, r.1 < r.2 := by
        intro r hr
        have hnot := List.find?_eq_none.mp hfind r hr
        simpa using hnot
      obtain ⟨hsep, hends⟩ := separated_coalesce_sort hnonempty
      exact ⟨hsep, rangeContains_coalesce_sort ranges, hends⟩

theorem normalizeRanges_of_separated {ranges : List Range} (h : Separated ranges) :
    ∃ out, normalizeRanges ranges = .ok out := by
  have hfind : (ranges.find? fun r => decide (r.2 ≤ r.1)) = none := by
    apply List.find?_eq_none.mpr
    intro r hr
    simpa using h.nonempty r hr
  exact ⟨_, by rw [normalizeRanges, hfind]⟩

theorem laneRanges_cons (e : Nat × List Range) (rest : List (Nat × List Range)) (lane : Nat) :
    laneRanges (e :: rest) lane = if lane = e.1 then e.2 else laneRanges rest lane := by
  unfold laneRanges
  rw [List.lookup_cons]
  by_cases h : lane = e.1
  · simp [h]
  · simp [h, beq_false_of_ne h]

theorem laneRanges_of_lt {lane : Nat} (h : ∀ e ∈ lanes, lane < e.1) :
    laneRanges lanes lane = [] := by
  have hnone : lanes.lookup lane = none := by
    apply List.lookup_eq_none_iff.mpr
    intro e he
    simpa using Nat.ne_of_lt (h e he)
  rw [laneRanges, hnone]
  rfl

/-- Every lane keeps its union, and no lane is added. -/
theorem normalizeLaneRanges_ok {out : List (Nat × List Range)}
    (h : normalizeLaneRanges lanes = .ok out) (hasc : lanes.Pairwise fun a b => a.1 < b.1) :
    (out.map Prod.fst).Sublist (lanes.map Prod.fst) ∧
      (∀ e ∈ out, Separated e.2 ∧ ∃ e' ∈ lanes, ∀ r ∈ e.2, ∃ s ∈ e'.2, r.2 = s.2) ∧
      ∀ lane x, rangeContains (laneRanges out lane) x = rangeContains (laneRanges lanes lane) x := by
  induction lanes generalizing out with
  | nil =>
      cases h
      exact ⟨.slnil, nofun, fun _ _ => rfl⟩
  | cons e lanes ih =>
      obtain ⟨lane, ranges⟩ := e
      obtain ⟨ranges', hranges, h⟩ := bindOk_iff.mp h
      obtain ⟨rest, hrest, h⟩ := bindOk_iff.mp h
      obtain ⟨hfirst, htail⟩ := List.pairwise_cons.mp hasc
      obtain ⟨hsub, hout, hsame⟩ := ih hrest htail
      obtain ⟨hsep, hunion, hends⟩ := normalizeRanges_ok hranges
      have hout' : ∀ e ∈ rest, Separated e.2 ∧ ∃ e' ∈ (lane, ranges) :: lanes,
          ∀ r ∈ e.2, ∃ s ∈ e'.2, r.2 = s.2 := by
        intro e he
        obtain ⟨hsep, e', he', hends⟩ := hout e he
        exact ⟨hsep, e', List.mem_cons_of_mem _ he', hends⟩
      cases ranges' with
      | nil =>
          obtain rfl : rest = out := Except.ok.inj h
          refine ⟨hsub.cons _, hout', fun lane' x => ?_⟩
          rw [laneRanges_cons, hsame]
          split
          next heq =>
            subst heq
            rw [laneRanges_of_lt hfirst, ← hunion]
          next => rfl
      | cons r ranges' =>
          obtain rfl : (lane, r :: ranges') :: rest = out := Except.ok.inj h
          refine ⟨hsub.cons_cons _, ?_, fun lane' x => ?_⟩
          · exact List.forall_mem_cons.mpr
              ⟨⟨hsep, (lane, ranges), List.mem_cons_self, hends⟩, hout'⟩
          · rw [laneRanges_cons, laneRanges_cons]
            split
            · exact hunion x
            · exact hsame lane' x

theorem normalizeLaneRanges_of_separated (h : ∀ e ∈ lanes, Separated e.2) :
    ∃ out, normalizeLaneRanges lanes = .ok out := by
  induction lanes with
  | nil => exact ⟨_, rfl⟩
  | cons e lanes ih =>
      obtain ⟨hfirst, hrest⟩ := List.forall_mem_cons.mp h
      obtain ⟨ranges, hranges⟩ := normalizeRanges_of_separated hfirst
      obtain ⟨rest, hrest⟩ := ih hrest
      exact ⟨_, bindOk_iff.mpr ⟨ranges, hranges, bindOk_iff.mpr ⟨rest, hrest, rfl⟩⟩⟩

/-! ### The file -/

theorem loadCancelledRanges_file {r : SegmentReader} {data : HiddenRanges} {body : Bytes}
    (hbody : r.codec.write (hiddenRangesSerde.ser data) = .ok body)
    (hfits : hiddenRangesSerde.Fits data) (hasc : data.lanes.Pairwise fun a b => a.1 < b.1)
    {global : List Range} (hglobal : normalizeRanges data.global = .ok global)
    (hlanes : normalizeLaneRanges data.lanes = .ok lanes) :
    loadCancelledRanges r (.ok (some (visibilityRangesFile r.crc body))) =
      .ok (some { global, lanes }) := by
  have hdecode : r.fromBytes hiddenRangesSerde body = .ok data := by
    simp only [SegmentReader.fromBytes, r.codec.read_write _ _ hbody, hiddenRangesSerde.de_ser _ hfits]
  obtain ⟨hmagic, hversion, hcrc, hdrop, hlen⟩ := headed_parts (show visibilityRangesMagic.length = 6
    from rfl) visibilityRangesVersion (r.crc.hash body) body
  unfold loadCancelledRanges visibilityRangesFile
  dsimp only
  rw [if_neg (Nat.not_lt.mpr hlen), if_neg (not_not_intro hmagic)]
  simp only [hversion, hcrc, hdrop, getLe_putLe, hdecode]
  rw [if_neg (Nat.lt_irrefl _), if_neg (by decide), if_neg (not_not_intro rfl)]
  have hfold := @Serde.foldl_insertKey _ _ _ data.lanes [] hasc
  rw [hfold, List.nil_append, hglobal, hlanes]
  rfl

/-- What is loaded from the file that was written means what was written. -/
theorem loadCancelledRanges_written (r : SegmentReader) {ranges : HiddenRanges}
    (typed : ranges.Typed) {file : Option Bytes} (hwrite : writeCancelledRanges r ranges = .ok file) :
    ∃ loaded, loadCancelledRanges r (.ok file) = .ok loaded ∧
      (∀ x, rangeContains (loaded.getD ⟨[], []⟩).global x = rangeContains ranges.global x) ∧
      ∀ lane x, rangeContains (laneRanges (loaded.getD ⟨[], []⟩).lanes lane) x =
        rangeContains (laneRanges ranges.lanes lane) x := by
  obtain ⟨global, hglobal, hwrite⟩ := bindOk_iff.mp hwrite
  obtain ⟨lanes, hlanes, hwrite⟩ := bindOk_iff.mp hwrite
  obtain ⟨hsep, hunion, hends⟩ := normalizeRanges_ok hglobal
  obtain ⟨hsub, hsepLanes, hunionLanes⟩ := normalizeLaneRanges_ok hlanes typed.ascending
  by_cases hempty : (global.isEmpty && lanes.isEmpty) = true
  · rw [if_pos hempty] at hwrite
    cases hwrite
    rw [Bool.and_eq_true, List.isEmpty_iff, List.isEmpty_iff] at hempty
    obtain ⟨rfl, rfl⟩ := hempty
    exact ⟨none, rfl, hunion, hunionLanes⟩
  · rw [if_neg hempty] at hwrite
    obtain ⟨body, hbody, hfile⟩ := bindOk_iff.mp hwrite
    cases hfile
    have hbounds : ∀ {out from' : List Range}, Separated out → (∀ r ∈ out, ∃ s ∈ from', r.2 = s.2) →
        (∀ s ∈ from', s.1 < 2 ^ 64 ∧ s.2 < 2 ^ 64) → ∀ r ∈ out, r.1 < 2 ^ 64 ∧ r.2 < 2 ^ 64 := by
      intro out from' hsep hends hfrom r hr
      obtain ⟨s, hs, hend⟩ := hends r hr
      have hstop : r.2 < 2 ^ 64 := hend ▸ (hfrom s hs).2
      exact ⟨Nat.lt_trans (hsep.nonempty r hr) hstop, hstop⟩
    have hfits : hiddenRangesSerde.Fits ⟨global, lanes⟩ := by
      refine ⟨hbounds hsep hends typed.global, fun e he => ⟨?_, ?_⟩⟩
      · obtain ⟨e', he', hlane⟩ := List.mem_map.mp (hsub.subset (List.mem_map_of_mem he))
        rw [← hlane]
        exact typed.lanes e' he'
      · obtain ⟨hsepLane, e', he', hendsLane⟩ := hsepLanes e he
        exact hbounds hsepLane hendsLane (typed.laneRanges e' he')
    have hasc : lanes.Pairwise fun a b => a.1 < b.1 :=
      List.pairwise_map.mp ((List.pairwise_map.mpr typed.ascending).sublist hsub)
    obtain ⟨global', hglobal'⟩ := normalizeRanges_of_separated hsep
    obtain ⟨lanes', hlanes'⟩ := normalizeLaneRanges_of_separated fun e he => (hsepLanes e he).1
    refine ⟨_, loadCancelledRanges_file (mapError_ok_iff.mp hbody) hfits hasc hglobal' hlanes', ?_, ?_⟩
    · exact fun x => ((normalizeRanges_ok hglobal').2.1 x).trans (hunion x)
    · exact fun lane x =>
        ((normalizeLaneRanges_ok hlanes' hasc).2.2 lane x).trans (hunionLanes lane x)

/-- Kept ranges are never refused: only the codec can fail to write them. -/
theorem writeCancelledRanges_of_separated (r : SegmentReader) {ranges : HiddenRanges}
    (hglobal : Separated ranges.global) (hlanes : ∀ e ∈ ranges.lanes, Separated e.2)
    {e : HiddenRangesError} (h : writeCancelledRanges r ranges = .error e) :
    ∃ reason, e = .serialization reason := by
  obtain ⟨global, hglobal⟩ := normalizeRanges_of_separated hglobal
  obtain ⟨lanes, hlanes⟩ := normalizeLaneRanges_of_separated hlanes
  unfold writeCancelledRanges at h
  rw [hglobal, hlanes] at h
  change (if (global.isEmpty && lanes.isEmpty) = true then .ok none else
    (r.codec.write (hiddenRangesSerde.ser ⟨global, lanes⟩)).mapError .serialization >>= fun body =>
      .ok (some (visibilityRangesFile r.crc body))) = .error e at h
  split at h
  · cases h
  · cases hcodec : r.codec.write (hiddenRangesSerde.ser ⟨global, lanes⟩) with
    | ok body =>
        rw [hcodec] at h
        cases h
    | error reason =>
        rw [hcodec] at h
        cases h
        exact ⟨reason, rfl⟩

/-- A list of cancelled ranges means its union: the gate keeps it sorted, disjoint and with
gaps, and the file gives back what was written. -/
theorem cancelled_ranges_mean_union (calls : List RangeCall) (r : SegmentReader)
    (ranges : HiddenRanges) (typed : ranges.Typed) :
    (Separated (run keptRanges [] calls) ∧ ∀ x,
      rangeContains (run keptRanges [] calls) x = true ↔
        ∃ range ∈ run insertedRanges [] calls, range.1 < range.2 ∧ range.1 ≤ x ∧ x < range.2) ∧
      (Separated ranges.global → (∀ e ∈ ranges.lanes, Separated e.2) → ∀ e,
        writeCancelledRanges r ranges = .error e → ∃ reason, e = .serialization reason) ∧
      ∀ file, writeCancelledRanges r ranges = .ok file →
        ∃ loaded, loadCancelledRanges r (.ok file) = .ok loaded ∧
          (∀ x, rangeContains (loaded.getD ⟨[], []⟩).cancelled.global x =
            rangeContains ranges.cancelled.global x) ∧
          ∀ lane x, rangeContains ((loaded.getD ⟨[], []⟩).cancelled.lanes lane) x =
            rangeContains (ranges.cancelled.lanes lane) x := by
  obtain ⟨hsep, hsame⟩ := rangeCall_run calls [] [] ⟨by simp, .nil⟩ fun _ => rfl
  refine ⟨⟨hsep, fun x => ?_⟩, fun hglobal hlanes e =>
    writeCancelledRanges_of_separated r hglobal hlanes, fun file =>
    loadCancelledRanges_written r typed⟩
  rw [hsame, rangeContains_iff]
  constructor
  · rintro ⟨range, hmem, hstart, hstop⟩
    exact ⟨range, hmem, Nat.lt_of_le_of_lt hstart hstop, hstart, hstop⟩
  · rintro ⟨range, hmem, -, hstart, hstop⟩
    exact ⟨range, hmem, hstart, hstop⟩

/-- A lane with two touching ranges. -/
def touchingRanges : HiddenRanges :=
  ⟨[], [(3, [(1, 2), (2, 4)])]⟩

/-- Touching, nested and empty ranges at the end of the numbers, and a lane that is written. -/
theorem touching_ranges_mean_union :
    run keptRanges [] [.insertCancelledRange (2 ^ 64 - 2) (2 ^ 64 - 1),
        .insertCancelledRange 7 7, .insertCancelledRange (2 ^ 64 - 4) (2 ^ 64 - 2)] =
      [(2 ^ 64 - 4, 2 ^ 64 - 1)] ∧
      ∃ file loaded, writeCancelledRanges ⟨.ieee, .shortest 8⟩ touchingRanges = .ok file ∧
        loadCancelledRanges ⟨.ieee, .shortest 8⟩ (.ok file) = .ok loaded ∧
          ∀ lane x, rangeContains ((loaded.getD ⟨[], []⟩).cancelled.lanes lane) x =
            rangeContains (touchingRanges.cancelled.lanes lane) x := by
  have typed : touchingRanges.Typed := ⟨by decide, by decide, by decide, by decide⟩
  have hok : (writeCancelledRanges ⟨.ieee, .shortest 8⟩ touchingRanges).isOk = true := by
    decide +kernel
  cases hfile : writeCancelledRanges ⟨.ieee, .shortest 8⟩ touchingRanges with
  | error e =>
      rw [hfile] at hok
      cases hok
  | ok file =>
      obtain ⟨loaded, hload, -, hlanes⟩ :=
        (cancelled_ranges_mean_union [] ⟨.ieee, .shortest 8⟩ touchingRanges typed).2.2 file hfile
      exact ⟨by decide +kernel, file, loaded, rfl, hload, hlanes⟩

end Batpak.Store
