/-
Module: Batpak.Proofs.RoutingHints
Purpose: What an accepted routing hint can change in a restored index, and the chunk ranges that
  partition the entries whatever the hint.
Trusted boundary: none
Main exports: exactRuns_entityRunsFrom, tiles_restoreChunkRanges
-/
import Batpak.Proofs.ReplayOrder
import Batpak.Store.Routing

namespace Batpak.Store

open Batpak.Util

variable {before current es : List IndexEntry} {e : IndexEntry} {entity : String}

/-! ### Chunk ranges -/

theorem tiles_evenRanges (entryCount : Nat) : Tiles entryCount (evenRanges entryCount) := by
  have hparts : 0 < recommendedRestoreChunkCount entryCount := by
    rw [recommendedRestoreChunkCount]
    omega
  have htiles := tiles_consecutive (evenLengths entryCount (recommendedRestoreChunkCount entryCount))
  rwa [sum_evenLengths hparts] at htiles

/-- Accepted chunks cover what is left from the expected start on. -/
theorem flatMap_chunkRangesFrom {entryCount expectedStart : Nat}
    {chunks : List RestoreChunkSummary} {ranges : List (Nat × Nat)}
    (hstart : expectedStart ≤ entryCount)
    (h : chunkRangesFrom entryCount expectedStart chunks = some ranges) :
    (ranges.flatMap fun r => List.range' r.1 r.2) =
      List.range' expectedStart (entryCount - expectedStart) := by
  induction chunks generalizing expectedStart ranges with
  | nil =>
      rw [chunkRangesFrom] at h
      by_cases hend : expectedStart = entryCount
      · rw [if_pos hend] at h
        obtain rfl := Option.some.inj h
        simp [hend]
      · rw [if_neg hend] at h
        cases h
  | cons chunk rest ih =>
      rw [chunkRangesFrom] at h
      split at h
      · cases h
      · split at h
        · cases h
        · rename_i hchecked
          simp only [not_or, Decidable.not_not, Nat.not_lt] at hchecked
          obtain ⟨-, hexpected, hfits⟩ := hchecked
          obtain ⟨tail, htail, rfl⟩ := Option.map_eq_some_iff.mp h
          rw [List.flatMap_cons, ih hfits htail, hexpected]
          have hlength : entryCount - expectedStart =
              chunk.len + (entryCount - (expectedStart + chunk.len)) := by omega
          rw [hlength, ← List.range'_append_1]

/-- Whatever the summary, the ranges are a partition. -/
theorem tiles_restoreChunkRanges (entryCount : Nat) (routing : RoutingSummary) :
    Tiles entryCount (restoreChunkRanges entryCount routing) := by
  rw [restoreChunkRanges]
  split
  · exact tiles_evenRanges entryCount
  · cases hranges : chunkRangesFrom entryCount 0 routing.chunks with
    | none =>
        rw [Option.getD_none]
        exact tiles_evenRanges entryCount
    | some ranges =>
        rw [Option.getD_some, Tiles, flatMap_chunkRangesFrom (Nat.zero_le _) hranges,
          Nat.sub_zero, List.range_eq_range']

/-! ### Runs -/

section Runs

variable {es : List IndexEntry} {run run' : EntityRun} {runs : List EntityRun}

/-- The entries of one entity. -/
def entriesOfEntity (es : List IndexEntry) (entity : String) : List IndexEntry :=
  es.filter fun e => e.coord.entity = entity

/-- What the check of a run establishes. -/
structure RunFits (es : List IndexEntry) (run : EntityRun) : Prop where
  nonempty : 0 < run.len
  addressable : run.start + run.len ≤ usizeMax
  fits : run.start + run.len ≤ es.length
  first : (run.slice es).head?.map (·.globalSequence) = some run.firstSequence
  last : (run.slice es).getLast?.map (·.globalSequence) = some run.lastSequence
  ofEntity : ∀ e ∈ run.slice es, e.coord.entity = run.entity

theorem runFits_of_check (h : run.check es = .ok ()) : RunFits es run := by
  rw [EntityRun.check] at h
  obtain ⟨-, h⟩ := ifError_ok_iff.mp h
  obtain ⟨-, h⟩ := ifError_ok_iff.mp h
  obtain ⟨haddressable, h⟩ := ifError_ok_iff.mp h
  obtain ⟨hnonempty, h⟩ := ifError_ok_iff.mp h
  obtain ⟨hfits, h⟩ := ifError_ok_iff.mp h
  obtain ⟨-, h⟩ := ifError_ok_iff.mp h
  obtain ⟨hfirst, h⟩ := ifError_ok_iff.mp h
  obtain ⟨hlast, h⟩ := ifError_ok_iff.mp h
  obtain ⟨hentity, -⟩ := ifError_ok_iff.mp h
  exact ⟨by omega, by omega, by omega, not_not.mp hfirst, not_not.mp hlast,
    by simpa using hentity⟩

/-- The run is the whole of its entity. -/
structure FullRun (es : List IndexEntry) (run : EntityRun) : Prop where
  nonempty : 0 < run.len
  fits : run.start + run.len ≤ es.length
  slice_eq : run.slice es = entriesOfEntity es run.entity
  first : (run.slice es).head?.map (·.globalSequence) = some run.firstSequence
  last : (run.slice es).getLast?.map (·.globalSequence) = some run.lastSequence

theorem FullRun.len_eq (h : FullRun es run) : run.len = (entriesOfEntity es run.entity).length := by
  rw [← h.slice_eq, EntityRun.slice, length_stretch h.fits]

/-- There is one such run for an entity. -/
theorem FullRun.unique (h : FullRun es run) (h' : FullRun es run')
    (hentity : run.entity = run'.entity) : run = run' := by
  have hstart : run.start = run'.start := by
    rw [start_of_stretch_eq_filter h.nonempty h.fits h.slice_eq,
      start_of_stretch_eq_filter h'.nonempty h'.fits h'.slice_eq, hentity]
  have hlen : run.len = run'.len := by rw [h.len_eq, h'.len_eq, hentity]
  have hslice : run.slice es = run'.slice es := by rw [h.slice_eq, h'.slice_eq, hentity]
  have hfirst : run.firstSequence = run'.firstSequence := by
    apply Option.some.inj
    rw [← h.first, ← h'.first, hslice]
  have hlast : run.lastSequence = run'.lastSequence := by
    apply Option.some.inj
    rw [← h.last, ← h'.last, hslice]
  cases run
  cases run'
  simp_all

/-- One run for every entity, each the whole of it. -/
structure ExactRuns (es : List IndexEntry) (runs : List EntityRun) : Prop where
  full : ∀ run ∈ runs, FullRun es run
  distinct : (runs.map (·.entity)).Nodup
  covers : ∀ e ∈ es, ∃ run ∈ runs, run.entity = e.coord.entity

theorem ExactRuns.of_perm (h : ExactRuns es runs) {runs' : List EntityRun}
    (hperm : runs.Perm runs') : ExactRuns es runs' where
  full := fun run hrun => h.full run (hperm.mem_iff.mpr hrun)
  distinct := (hperm.map _).nodup_iff.mp h.distinct
  covers := by
    intro e he
    obtain ⟨run, hrun, hentity⟩ := h.covers e he
    exact ⟨run, hperm.mem_iff.mp hrun, hentity⟩

/-! ### The computed runs -/

/-- The entities ascend. -/
def EntitiesAscend (es : List IndexEntry) : Prop :=
  es.Pairwise fun a b => a.coord.entity ≤ b.coord.entity

theorem entitiesAscend_sortEntriesByEntity (entries : List IndexEntry) :
    EntitiesAscend (sortEntriesByEntity entries) := by
  have hsorted := List.pairwise_insertionSort
    (fun a b : IndexEntry => StoreIndex.entityOrder a b = true) entries
  apply hsorted.imp
  intro a b horder
  rcases entityOrder_iff.mp horder with hlt | ⟨heq, -⟩
  · exact hlt.le
  · exact heq.le

/-- The run in progress stands for entries of its entity, behind those of smaller entities. -/
structure OpenRun (before current : List IndexEntry) (run : EntityRun) : Prop where
  start_eq : run.start = before.length
  len_eq : run.len = current.length
  nonempty : current ≠ []
  ofEntity : ∀ e ∈ current, e.coord.entity = run.entity
  below : ∀ e ∈ before, e.coord.entity < run.entity
  first : current.head?.map (·.globalSequence) = some run.firstSequence
  last : current.getLast?.map (·.globalSequence) = some run.lastSequence

theorem openRun_single (hbelow : ∀ e' ∈ before, e'.coord.entity < e.coord.entity) :
    OpenRun before [e] (.single before.length e) where
  start_eq := rfl
  len_eq := rfl
  nonempty := by simp
  ofEntity := by simp [EntityRun.single]
  below := hbelow
  first := rfl
  last := rfl

theorem OpenRun.extend (h : OpenRun before current run) (hentity : e.coord.entity = run.entity) :
    OpenRun before (current ++ [e]) (run.extend e) where
  start_eq := h.start_eq
  len_eq := by simp [EntityRun.extend, h.len_eq]
  nonempty := by simp
  ofEntity := by
    intro e' he'
    rcases List.mem_append.mp he' with he' | he'
    · exact h.ofEntity e' he'
    · rw [List.mem_singleton.mp he']
      exact hentity
  below := h.below
  first := by
    rw [List.head?_append_of_ne_nil _ h.nonempty]
    exact h.first
  last := by simp [EntityRun.extend]

/-- A run is closed when a larger entity follows, and is then the whole of its entity. -/
theorem OpenRun.full {rest : List IndexEntry} (h : OpenRun before current run)
    (habove : ∀ e ∈ rest, run.entity < e.coord.entity) :
    FullRun (before ++ current ++ rest) run := by
  have hslice : run.slice (before ++ current ++ rest) = current := by
    rw [EntityRun.slice, h.start_eq, h.len_eq, stretch_append]
  have hfilter : entriesOfEntity (before ++ current ++ rest) run.entity = current := by
    have hbefore : before.filter (fun e => e.coord.entity = run.entity) = [] := by
      apply List.filter_eq_nil_iff.mpr
      intro e he
      simpa using (h.below e he).ne
    have hrest : rest.filter (fun e => e.coord.entity = run.entity) = [] := by
      apply List.filter_eq_nil_iff.mpr
      intro e he
      simpa using (habove e he).ne'
    have hcurrent : current.filter (fun e => e.coord.entity = run.entity) = current := by
      apply List.filter_eq_self.mpr
      intro e he
      simpa using h.ofEntity e he
    simp [entriesOfEntity, List.filter_append, hbefore, hrest, hcurrent]
  constructor
  · rw [h.len_eq]
    exact List.length_pos_of_ne_nil h.nonempty
  · rw [h.start_eq, h.len_eq]
    simp
  · rw [hslice, hfilter]
  · rw [hslice]
    exact h.first
  · rw [hslice]
    exact h.last

/-- The scan from a run in progress. -/
structure ScannedRuns (es pending : List IndexEntry) (floor : String) (runs : List EntityRun) :
    Prop where
  full : ∀ run ∈ runs, FullRun es run
  ascending : (runs.map (·.entity)).Pairwise (· < ·)
  above : ∀ run ∈ runs, floor ≤ run.entity
  covers : ∀ e ∈ pending, ∃ run ∈ runs, run.entity = e.coord.entity

theorem scannedRuns_open {rest : List IndexEntry} (h : OpenRun before current run)
    (hsorted : EntitiesAscend (before ++ current ++ rest)) :
    ScannedRuns (before ++ current ++ rest) (current ++ rest) run.entity
      (entityRunsFrom (before.length + current.length) (some run) rest) := by
  induction rest generalizing before current run with
  | nil =>
      rw [entityRunsFrom]
      have hfull : FullRun (before ++ current ++ []) run := h.full (by simp)
      constructor
      · simpa using hfull
      · simp
      · simp
      · intro e he
        exact ⟨run, by simp, (h.ofEntity e (by simpa using he)).symm⟩
  | cons e rest ih =>
      rw [entityRunsFrom]
      have hle : run.entity ≤ e.coord.entity := by
        obtain ⟨a, ha⟩ := List.exists_mem_of_ne_nil current h.nonempty
        rw [← h.ofEntity a ha]
        have hpair := List.pairwise_append.mp hsorted
        exact hpair.2.2 a (List.mem_append_right _ ha) e List.mem_cons_self
      by_cases hentity : e.coord.entity = run.entity
      · rw [if_pos hentity]
        have hstep := ih (h.extend hentity) (by simpa using hsorted)
        simpa [EntityRun.extend, Nat.add_assoc] using hstep
      · rw [if_neg hentity]
        have hlt : run.entity < e.coord.entity := lt_of_le_of_ne hle (Ne.symm hentity)
        have hbelow : ∀ e' ∈ before ++ current, e'.coord.entity < e.coord.entity := by
          intro e' he'
          rcases List.mem_append.mp he' with he' | he'
          · exact (h.below e' he').trans hlt
          · rw [h.ofEntity e' he']
            exact hlt
        have hstep := ih (openRun_single hbelow) (by simpa using hsorted)
        have habove : ∀ e' ∈ e :: rest, run.entity < e'.coord.entity := by
          intro e' he'
          rcases List.mem_cons.mp he' with rfl | he'
          · exact hlt
          · have hpair := (List.pairwise_append.mp hsorted).2.1
            exact hlt.trans_le (List.rel_of_pairwise_cons hpair he')
        have hfull : FullRun (before ++ current ++ e :: rest) run := h.full habove
        simp only [List.length_append, List.length_singleton, List.append_assoc,
          List.singleton_append] at hstep hfull ⊢
        constructor
        · intro run' hrun'
          rcases List.mem_cons.mp hrun' with rfl | hrun'
          · exact hfull
          · exact hstep.full run' hrun'
        · rw [List.map_cons, List.pairwise_cons]
          refine ⟨?_, hstep.ascending⟩
          intro entity hmem
          obtain ⟨run', hrun', rfl⟩ := List.mem_map.mp hmem
          exact hlt.trans_le (hstep.above run' hrun')
        · intro run' hrun'
          rcases List.mem_cons.mp hrun' with rfl | hrun'
          · exact le_refl _
          · exact hlt.le.trans (hstep.above run' hrun')
        · intro e' he'
          rcases List.mem_append.mp he' with he' | he'
          · exact ⟨run, List.mem_cons_self, (h.ofEntity e' he').symm⟩
          · obtain ⟨run', hrun', hrun'Entity⟩ := hstep.covers e' he'
            exact ⟨run', List.mem_cons_of_mem _ hrun', hrun'Entity⟩

theorem exactRuns_entityRunsFrom (hsorted : EntitiesAscend es) :
    ExactRuns es (entityRunsFrom 0 none es) := by
  cases es with
  | nil => exact ⟨by simp [entityRunsFrom], by simp [entityRunsFrom], by simp⟩
  | cons e rest =>
      have hopen : OpenRun [] [e] (.single 0 e) := openRun_single (by simp)
      have hscan := scannedRuns_open hopen hsorted
      exact ⟨hscan.full, hscan.ascending.imp fun hlt => hlt.ne, hscan.covers⟩

/-! ### Hints against the computed runs -/

theorem ExactRuns.sum_len (h : ExactRuns es runs) : (runs.map (·.len)).sum = es.length := by
  have hperm : (runs.map (·.entity)).Perm (es.map (·.coord.entity)).dedup := by
    apply (List.perm_ext_iff_of_nodup h.distinct (List.nodup_dedup _)).mpr
    intro entity
    rw [List.mem_dedup]
    constructor
    · intro hmem
      obtain ⟨run, hrun, rfl⟩ := List.mem_map.mp hmem
      have hfull := h.full run hrun
      have hlen := hfull.len_eq
      obtain ⟨e, he⟩ := List.exists_mem_of_length_pos (hlen ▸ hfull.nonempty)
      have hmember := List.mem_filter.mp he
      exact List.mem_map.mpr ⟨e, hmember.1, by simpa using hmember.2⟩
    · intro hmem
      obtain ⟨e, he, rfl⟩ := List.mem_map.mp hmem
      obtain ⟨run, hrun, hentity⟩ := h.covers e he
      exact List.mem_map.mpr ⟨run, hrun, hentity⟩
  have hlens : runs.map (·.len) =
      (runs.map (·.entity)).map fun entity => (es.map (·.coord.entity)).count entity := by
    rw [List.map_map]
    apply List.map_congr_left
    intro run hrun
    rw [Function.comp_apply, (h.full run hrun).len_eq, entriesOfEntity, List.count_eq_countP,
      List.countP_map, List.countP_eq_length_filter]
    congr 1
  rw [hlens, (hperm.map _).sum_eq, List.sum_map_count_dedup_eq_length, List.length_map]

/-- Runs of the right total that hold the whole run of every entity are the computed ones. -/
theorem perm_of_subset {exact : List EntityRun} (hexact : ExactRuns es exact)
    (hpositive : ∀ run ∈ runs, 0 < run.len) (hsum : (runs.map (·.len)).sum = es.length)
    (hsubset : ∀ run ∈ exact, run ∈ runs) : runs.Perm exact := by
  have hnodup : exact.Nodup := List.Nodup.of_map _ hexact.distinct
  have hle : (exact : Multiset EntityRun) ≤ runs := Multiset.coe_le.mpr (hnodup.subperm hsubset)
  obtain ⟨extra, hextra⟩ := Multiset.le_iff_exists_add.mp hle
  induction extra using Quotient.inductionOn with
  | h extra =>
      have hperm : runs.Perm (exact ++ extra) := Multiset.coe_eq_coe.mp hextra
      have htotal := (hperm.map (·.len)).sum_eq
      rw [List.map_append, List.sum_append, hexact.sum_len, hsum] at htotal
      have hnone : extra = [] := by
        cases extra with
        | nil => rfl
        | cons run rest =>
            have hpos := hpositive run (hperm.mem_iff.mpr (by simp))
            simp only [List.map_cons, List.sum_cons] at htotal
            omega
      rwa [hnone, List.append_nil] at hperm

/-! ### What the runs install -/

theorem sliceChecked_ok_iff {slice : List IndexEntry} :
    run.sliceChecked es = .ok slice ↔
      (run.start + run.len ≤ usizeMax ∧ run.start + run.len ≤ es.length) ∧
        slice = run.slice es := by
  rw [EntityRun.sliceChecked, ifError_ok_iff, ifError_ok_iff, ifError_ok_iff, ifError_ok_iff]
  constructor
  · rintro ⟨-, -, haddressable, hfits, h⟩
    exact ⟨⟨by omega, by omega⟩, (Except.ok.inj h).symm⟩
  · rintro ⟨⟨haddressable, hfits⟩, rfl⟩
    exact ⟨by omega, by omega, by omega, by omega, rfl⟩

theorem mapM_sliceChecked_ok_iff {slices : List (List IndexEntry)} :
    runs.mapM (EntityRun.sliceChecked es) = .ok slices ↔
      (∀ run ∈ runs, run.start + run.len ≤ usizeMax ∧ run.start + run.len ≤ es.length) ∧
        slices = runs.map (·.slice es) := by
  have hslices : ∀ {slices}, runs.mapM (EntityRun.sliceChecked es) = .ok slices →
      slices = runs.map (·.slice es) := by
    intro slices h
    have hkeeps : ∀ (run : EntityRun) slice, run.sliceChecked es = .ok slice →
        id slice = run.slice es := fun run slice hslice => (sliceChecked_ok_iff.mp hslice).2
    have hids := map_eq_of_mapM_ok h hkeeps
    rwa [List.map_id] at hids
  constructor
  · intro h
    refine ⟨fun run hrun => ?_, hslices h⟩
    obtain ⟨slice, hslice⟩ := exists_mapM_ok_iff.mp ⟨slices, h⟩ run hrun
    exact (sliceChecked_ok_iff.mp hslice).1
  · rintro ⟨hfit, rfl⟩
    obtain ⟨slices, h⟩ := exists_mapM_ok_iff.mpr fun run hrun =>
      ⟨_, sliceChecked_ok_iff.mpr ⟨hfit run hrun, rfl⟩⟩
    rw [h, hslices h]

/-- Slices of runs that are not empty, each of one entity. -/
structure FiledRuns (es : List IndexEntry) (runs : List EntityRun) : Prop where
  nonempty : ∀ run ∈ runs, run.slice es ≠ []
  ofEntity : ∀ run ∈ runs, ∀ e ∈ run.slice es, e.coord.entity = run.entity

theorem FiledRuns.filed (h : FiledRuns es runs) :
    ((runs.map (·.slice es)).filter fun slice => !slice.isEmpty) = runs.map (·.slice es) := by
  apply List.filter_eq_self.mpr
  intro slice hslice
  obtain ⟨run, hrun, rfl⟩ := List.mem_map.mp hslice
  simpa using h.nonempty run hrun

theorem FiledRuns.sliceEntity_eq (h : FiledRuns es runs) (hrun : run ∈ runs) :
    sliceEntity (run.slice es) = run.entity := by
  cases hslice : run.slice es with
  | nil => exact absurd hslice (h.nonempty run hrun)
  | cons e rest => exact h.ofEntity run hrun e (by rw [hslice]; exact List.mem_cons_self)

theorem RunFits.slice_ne_nil (h : RunFits es run) : run.slice es ≠ [] := by
  apply List.ne_nil_of_length_pos
  rw [EntityRun.slice, length_stretch h.fits]
  exact h.nonempty

theorem filedRuns_of_fits (h : ∀ run ∈ runs, RunFits es run) : FiledRuns es runs where
  nonempty := fun run hrun => (h run hrun).slice_ne_nil
  ofEntity := fun run hrun => (h run hrun).ofEntity

theorem ExactRuns.filedRuns (h : ExactRuns es runs) : FiledRuns es runs where
  nonempty := by
    intro run hrun
    have hfull := h.full run hrun
    apply List.ne_nil_of_length_pos
    rw [EntityRun.slice, length_stretch hfull.fits]
    exact hfull.nonempty
  ofEntity := by
    intro run hrun e he
    rw [(h.full run hrun).slice_eq] at he
    simpa using (List.mem_filter.mp he).2

/-- What is stored for an entity comes from a run of the entity. -/
theorem FiledRuns.storeAll_some {β : Type} (h : FiledRuns es runs) {value : List IndexEntry → β}
    {b : β} (hb : storeAll sliceEntity value (runs.map (·.slice es)) entity = some b) :
    ∃ run ∈ runs, run.entity = entity ∧ value (run.slice es) = b := by
  rw [storeAll_apply] at hb
  cases hlast : ((runs.map (·.slice es)).filter fun slice => sliceEntity slice = entity).getLast? with
  | none =>
      rw [hlast] at hb
      cases hb
  | some slice =>
      rw [hlast] at hb
      obtain ⟨hslice, hentity⟩ := List.mem_filter.mp (List.mem_of_getLast? hlast)
      obtain ⟨run, hrun, rfl⟩ := List.mem_map.mp hslice
      refine ⟨run, hrun, ?_, Option.some.inj hb⟩
      rw [← h.sliceEntity_eq hrun]
      simpa using hentity

/-- With exact runs every entity has the value of all its entries. -/
theorem ExactRuns.storeAll_eq {β : Type} (h : ExactRuns es runs) (value : List IndexEntry → β)
    (entity : String) :
    storeAll sliceEntity value (runs.map (·.slice es)) entity =
      if entriesOfEntity es entity = [] then none
      else some (value (entriesOfEntity es entity)) := by
  cases hstored : storeAll sliceEntity value (runs.map (·.slice es)) entity with
  | some b =>
      obtain ⟨run, hrun, rfl, rfl⟩ := h.filedRuns.storeAll_some hstored
      rw [← (h.full run hrun).slice_eq, if_neg (h.filedRuns.nonempty run hrun)]
  | none =>
      by_cases hnone : entriesOfEntity es entity = []
      · rw [if_pos hnone]
      · obtain ⟨e, he⟩ := List.exists_mem_of_ne_nil _ hnone
        obtain ⟨hmem, hentity⟩ := List.mem_filter.mp he
        obtain ⟨run, hrun, hrunEntity⟩ := h.covers e hmem
        have hname : sliceEntity (run.slice es) = entity := by
          rw [h.filedRuns.sliceEntity_eq hrun, hrunEntity]
          simpa using hentity
        rw [storeAll_apply, Option.map_eq_none_iff, List.getLast?_eq_none_iff,
          List.filter_eq_nil_iff] at hstored
        exact absurd (by simpa using hname)
          (hstored _ (List.mem_map.mpr ⟨run, hrun, rfl⟩))

/-- The slices of exact runs hold the entries of an entity once, in their order. -/
theorem ExactRuns.filter_flatten (h : ExactRuns es runs) (entity : String) :
    ((runs.map (·.slice es)).flatten.filter fun e => e.coord.entity = entity) =
      entriesOfEntity es entity := by
  have hgeneral : ∀ more : List EntityRun, (∀ run ∈ more, FullRun es run) →
      (more.map (·.entity)).Nodup →
      ((more.map (·.slice es)).flatten.filter fun e => e.coord.entity = entity) =
        if entity ∈ more.map (·.entity) then entriesOfEntity es entity else [] := by
    intro more hfull hdistinct
    induction more with
    | nil => simp
    | cons run rest ih =>
        obtain ⟨hnotin, hrest⟩ := List.nodup_cons.mp hdistinct
        have htail := ih (fun r hr => hfull r (List.mem_cons_of_mem _ hr)) hrest
        rw [List.map_cons, List.flatten_cons, List.filter_append, htail,
          (hfull run List.mem_cons_self).slice_eq, entriesOfEntity, List.filter_filter]
        by_cases hentity : run.entity = entity
        · subst hentity
          rw [if_neg hnotin]
          simp [entriesOfEntity]
        · have hother : (es.filter fun e =>
              decide (e.coord.entity = entity) && decide (e.coord.entity = run.entity)) = [] := by
            apply List.filter_eq_nil_iff.mpr
            intro e _
            simp only [Bool.and_eq_true, decide_eq_true_eq, not_and]
            intro h1 h2
            exact hentity (h2.symm.trans h1)
          simp only [hother, List.nil_append, List.map_cons, List.mem_cons,
            show entity ≠ run.entity from Ne.symm hentity, false_or]
  rw [hgeneral runs h.full h.distinct]
  by_cases hnone : entriesOfEntity es entity = []
  · simp [hnone]
  · obtain ⟨e, he⟩ := List.exists_mem_of_ne_nil _ hnone
    obtain ⟨hmem, hentity⟩ := List.mem_filter.mp he
    obtain ⟨run, hrun, hrunEntity⟩ := h.covers e hmem
    rw [if_pos]
    exact List.mem_map.mpr ⟨run, hrun, hrunEntity.trans (by simpa using hentity)⟩

end Runs

/-! ### The restored index -/

/-- Equal as maps of groups and as sets of entities and scopes. -/
structure SoAoSInner.Same (s t : SoAoSInner) : Prop where
  groups : s.groups = t.groups
  keys : ∀ entity, entity ∈ s.keys ↔ entity ∈ t.keys
  scopes : ∀ p, p ∈ s.scopeEntities ↔ p ∈ t.scopeEntities

/-- Two restored indexes answer alike: streams, chain heads, point lookup, the gate and every
overlay. -/
structure SameRestored (a b : RoutedIndex) : Prop where
  streams : a.streams = b.streams
  heads : ∀ entity lane,
    a.index.getLatestCommitted entity lane = b.index.getLatestCommitted entity lane
  byId : ∀ eventId, a.index.byId eventId = b.index.byId eventId
  gate : a.index.gate = b.index.gate
  byFact : a.scan.byFact = b.scan.byFact
  scopes : a.scan.scopeEntities = b.scan.scopeEntities
  soa : a.scan.soa = b.scan.soa
  tiles : a.scan.tiles64 = b.scan.tiles64
  groups : Option.Rel SoAoSInner.Same a.scan.entityGroups b.scan.entityGroups

/-- The hint changes nothing: into whatever index the entries are restored, the result is that
of the computed routing, every entry is in exactly one stream, and the chunk ranges cover the
entries. -/
structure HarmlessHint (entries : List IndexEntry) (hint : RoutingSummary) : Prop where
  same : ∀ (ix : RoutedIndex) (allocatorHint chunkCount : Nat), ∃ hinted computed,
    ix.restoreSortedEntriesImpl entries allocatorHint chunkCount (some hint) = .ok hinted ∧
    ix.restoreSortedEntriesImpl entries allocatorHint chunkCount none = .ok computed ∧
    SameRestored hinted computed
  oneStream : ∀ (ix hinted : RoutedIndex) (allocatorHint chunkCount : Nat),
    ix.restoreSortedEntriesImpl entries allocatorHint chunkCount (some hint) = .ok hinted →
    ∀ e ∈ entries, ∃! entity, e ∈ (hinted.streams entity).getD []
  tiles : Tiles entries.length (restoreChunkRanges entries.length hint)

/-- Entries of one entity with one clock key are one entry. -/
def UniqueClockKeys (entries : List IndexEntry) : Prop :=
  ∀ e ∈ entries, ∀ e' ∈ entries, e.coord.entity = e'.coord.entity → e.clockKey = e'.clockKey →
    e = e'

/-- The runs computed from the entries. -/
def computedRuns (entries : List IndexEntry) : List EntityRun :=
  entityRunsFrom 0 none (sortEntriesByEntity entries)

section Restored

variable {entries : List IndexEntry} {hint : RoutingSummary} {ix restored : RoutedIndex}
  {allocatorHint chunkCount : Nat} {runs : List EntityRun}

theorem exactRuns_computedRuns (entries : List IndexEntry) :
    ExactRuns (sortEntriesByEntity entries) (computedRuns entries) :=
  exactRuns_entityRunsFrom (entitiesAscend_sortEntriesByEntity entries)

theorem restore_computed_ok_iff :
    ix.restoreSortedEntriesImpl entries allocatorHint chunkCount none = .ok restored ↔
      (∀ run ∈ computedRuns entries, run.start + run.len ≤ usizeMax) ∧
        restored = ix.install entries allocatorHint
          ((computedRuns entries).map (·.slice (sortEntriesByEntity entries))) := by
  have hfits : ∀ run ∈ computedRuns entries,
      run.start + run.len ≤ (sortEntriesByEntity entries).length :=
    fun run hrun => ((exactRuns_computedRuns entries).full run hrun).fits
  constructor
  · intro h
    obtain ⟨slices, hslices, h⟩ := bindOk_iff.mp h
    obtain ⟨haddressable, rfl⟩ := mapM_sliceChecked_ok_iff.mp hslices
    exact ⟨fun run hrun => (haddressable run hrun).1, (Except.ok.inj h).symm⟩
  · rintro ⟨haddressable, rfl⟩
    refine bindOk_iff.mpr ⟨_, mapM_sliceChecked_ok_iff.mpr ⟨?_, rfl⟩, rfl⟩
    exact fun run hrun => ⟨haddressable run hrun, hfits run hrun⟩

/-- What an accepted hint has been checked for. -/
theorem fits_of_valid
    (hvalid : hint.validateDetailed entries (sortEntriesByEntity entries) = .ok ()) :
    (∀ run ∈ hint.entityRuns, RunFits (sortEntriesByEntity entries) run) ∧
      (hint.entityRuns.map (·.len)).sum = (sortEntriesByEntity entries).length := by
  obtain ⟨-, hvalid⟩ := ifError_ok_iff.mp hvalid
  obtain ⟨-, hvalid⟩ := ifError_ok_iff.mp hvalid
  obtain ⟨⟨⟩, -, hvalid⟩ := bindOk_iff.mp hvalid
  obtain ⟨-, hvalid⟩ := ifError_ok_iff.mp hvalid
  obtain ⟨⟨⟩, hruns, hvalid⟩ := bindOk_iff.mp hvalid
  constructor
  · exact fun run hrun => runFits_of_check (forM_ok_iff.mp hruns run hrun)
  · by_contra hsum
    rw [if_neg hsum] at hvalid
    cases hvalid

/-- The restore under an accepted hint goes through and installs the hint's slices. -/
theorem restore_hinted
    (hvalid : hint.validateDetailed entries (sortEntriesByEntity entries) = .ok ()) :
    ix.restoreSortedEntriesImpl entries allocatorHint chunkCount (some hint) =
      .ok (ix.install entries allocatorHint
        (hint.entityRuns.map (·.slice (sortEntriesByEntity entries)))) := by
  have hbase : RestoreBase.fromSortedEntries entries chunkCount (some hint) =
      ⟨entries, sortEntriesByEntity entries, hint⟩ := by
    simp [RestoreBase.fromSortedEntries, Option.filter, hvalid, Except.isOk, Except.toBool]
  rw [RoutedIndex.restoreSortedEntriesImpl, hbase]
  refine bindOk_iff.mpr ⟨_, mapM_sliceChecked_ok_iff.mpr ⟨?_, rfl⟩, rfl⟩
  intro run hrun
  have hfits := (fits_of_valid hvalid).1 run hrun
  exact ⟨hfits.addressable, hfits.fits⟩

/-! ### Exact runs -/

/-- A chain head is the last entry of the lane among those of the entity. -/
theorem getLatestCommitted_install (h : ExactRuns es runs) (entity : String) (lane : Nat) :
    (ix.install entries allocatorHint (runs.map (·.slice es))).index.getLatestCommitted entity lane =
      (entriesOfEntity es entity).reverse.find? fun e => e.dagLane == lane := by
  have hlatest : (ix.install entries allocatorHint (runs.map (·.slice es))).index.latest =
      (runs.map (·.slice es)).flatten.reverse := by
    simp only [RoutedIndex.install, h.filedRuns.filed]
  rw [StoreIndex.getLatestCommitted, hlatest, ← h.filter_flatten entity, ← List.filter_reverse,
    List.find?_filter]
  congr 1
  funext e
  simp [beq_eq_decide]

theorem streams_install (h : ExactRuns es runs) (entity : String) :
    (ix.install entries allocatorHint (runs.map (·.slice es))).streams entity =
      if entriesOfEntity es entity = [] then none
      else some (clockValues (entriesOfEntity es entity).reverse) := by
  rw [RoutedIndex.install]
  dsimp only
  rw [h.filedRuns.filed]
  exact h.storeAll_eq (fun slice => clockValues slice.reverse) entity

theorem groups_fromSlices (h : ExactRuns es runs) (entity : String) :
    (SoAoSInner.fromSlices (runs.map (·.slice es))).groups entity =
      if entriesOfEntity es entity = [] then none
      else some ⟨entriesOfEntity es entity, (entriesOfEntity es entity).length, []⟩ := by
  rw [SoAoSInner.fromSlices]
  dsimp only
  rw [h.filedRuns.filed]
  exact h.storeAll_eq (fun slice => (⟨slice, slice.length, []⟩ : EntityGroup)) entity

theorem mem_keys_fromSlices (h : ExactRuns es runs) (entity : String) :
    entity ∈ (SoAoSInner.fromSlices (runs.map (·.slice es))).keys ↔
      entity ∈ es.map (·.coord.entity) := by
  rw [SoAoSInner.fromSlices]
  dsimp only
  rw [h.filedRuns.filed, List.mem_dedup, List.map_map, List.mem_map, List.mem_map]
  constructor
  · rintro ⟨run, hrun, rfl⟩
    obtain ⟨e, he⟩ := List.exists_mem_of_ne_nil _ (h.filedRuns.nonempty run hrun)
    refine ⟨e, (stretch_sublist ..).subset he, ?_⟩
    rw [h.filedRuns.ofEntity run hrun e he, Function.comp_apply, h.filedRuns.sliceEntity_eq hrun]
  · rintro ⟨e, he, rfl⟩
    obtain ⟨run, hrun, hentity⟩ := h.covers e he
    exact ⟨run, hrun, (h.filedRuns.sliceEntity_eq hrun).trans hentity⟩

theorem mem_noteAll {p : String × String} (slice : List IndexEntry) (scopes : ScopeEntities) :
    p ∈ slice.foldl (fun scopes e =>
        if (e.coord.scope, entity) ∈ scopes then scopes else scopes ++ [(e.coord.scope, entity)])
      scopes ↔ p ∈ scopes ∨ ∃ e ∈ slice, p = (e.coord.scope, entity) := by
  induction slice generalizing scopes with
  | nil => simp
  | cons e rest ih =>
      rw [List.foldl_cons, ih]
      by_cases hin : (e.coord.scope, entity) ∈ scopes
      · rw [if_pos hin]
        constructor
        · rintro (h | ⟨e', he', rfl⟩)
          · exact .inl h
          · exact .inr ⟨e', List.mem_cons_of_mem _ he', rfl⟩
        · rintro (h | ⟨e', he', rfl⟩)
          · exact .inl h
          · rcases List.mem_cons.mp he' with rfl | he'
            · exact .inl hin
            · exact .inr ⟨e', he', rfl⟩
      · rw [if_neg hin]
        simp [or_assoc]

theorem mem_scopes_fromSlices (h : ExactRuns es runs) (p : String × String) :
    p ∈ (SoAoSInner.fromSlices (runs.map (·.slice es))).scopeEntities ↔
      ∃ e ∈ es, p = (e.coord.scope, e.coord.entity) := by
  have hfold : ∀ (slices : List (List IndexEntry)) (scopes : ScopeEntities),
      p ∈ slices.foldl (fun scopes slice => slice.foldl (fun scopes e =>
          if (e.coord.scope, sliceEntity slice) ∈ scopes then scopes
          else scopes ++ [(e.coord.scope, sliceEntity slice)]) scopes) scopes ↔
        p ∈ scopes ∨ ∃ slice ∈ slices, ∃ e ∈ slice, p = (e.coord.scope, sliceEntity slice) := by
    intro slices
    induction slices with
    | nil => simp
    | cons slice rest ih =>
        intro scopes
        rw [List.foldl_cons, ih, mem_noteAll]
        simp [or_assoc]
  rw [SoAoSInner.fromSlices]
  dsimp only
  rw [h.filedRuns.filed, hfold]
  constructor
  · rintro (hnone | ⟨slice, hslice, e, he, rfl⟩)
    · cases hnone
    · obtain ⟨run, hrun, rfl⟩ := List.mem_map.mp hslice
      refine ⟨e, (stretch_sublist ..).subset he, ?_⟩
      rw [h.filedRuns.sliceEntity_eq hrun, h.filedRuns.ofEntity run hrun e he]
  · rintro ⟨e, he, rfl⟩
    obtain ⟨run, hrun, hentity⟩ := h.covers e he
    refine .inr ⟨_, List.mem_map.mpr ⟨run, hrun, rfl⟩, e, ?_, ?_⟩
    · rw [(h.full run hrun).slice_eq]
      exact List.mem_filter.mpr ⟨he, by simpa using hentity.symm⟩
    · rw [h.filedRuns.sliceEntity_eq hrun, hentity]

/-- Exact runs install the same index, in whatever order they come. -/
theorem sameRestored_of_exact {runs' : List EntityRun} (h : ExactRuns es runs)
    (h' : ExactRuns es runs') :
    SameRestored (ix.install entries allocatorHint (runs.map (·.slice es)))
      (ix.install entries allocatorHint (runs'.map (·.slice es))) where
  streams := by
    funext entity
    rw [streams_install h, streams_install h']
  heads := fun entity lane => by
    rw [getLatestCommitted_install h, getLatestCommitted_install h']
  byId := fun _ => rfl
  gate := rfl
  byFact := rfl
  scopes := rfl
  soa := rfl
  tiles := rfl
  groups := by
    simp only [RoutedIndex.install, ScanIndex.rebuildFromSlices]
    cases ix.scan.entityGroups with
    | none => exact .none
    | some groups =>
        apply Option.Rel.some
        constructor
        · funext entity
          rw [groups_fromSlices h, groups_fromSlices h']
        · intro entity
          rw [mem_keys_fromSlices h, mem_keys_fromSlices h']
        · intro p
          rw [mem_scopes_fromSlices h, mem_scopes_fromSlices h']

/-! ### Harmless hints -/

theorem mem_clockValues {l : List IndexEntry} :
    e ∈ clockValues l ↔ e ∈ l ∧ l.find? (fun e' => e'.clockKey == e.clockKey) = some e := by
  rw [clockValues, (List.perm_insertionSort _ _).mem_iff, List.mem_filter, beq_iff_eq]

theorem mem_entriesOfEntity :
    e ∈ entriesOfEntity (sortEntriesByEntity entries) entity ↔
      e ∈ entries ∧ e.coord.entity = entity := by
  rw [entriesOfEntity, List.mem_filter, sortEntriesByEntity,
    (List.perm_insertionSort _ _).mem_iff, decide_eq_true_eq]

/-- The entries of a stream that exact runs installed. -/
theorem mem_stream_install (h : ExactRuns (sortEntriesByEntity entries) runs) :
    e ∈ ((ix.install entries allocatorHint
        (runs.map (·.slice (sortEntriesByEntity entries)))).streams entity).getD [] ↔
      e ∈ clockValues (entriesOfEntity (sortEntriesByEntity entries) entity).reverse := by
  rw [streams_install h]
  by_cases hnone : entriesOfEntity (sortEntriesByEntity entries) entity = []
  · rw [if_pos hnone, hnone]
    simp [clockValues]
  · rw [if_neg hnone, Option.getD_some]

theorem existsUnique_stream_iff (h : ExactRuns (sortEntriesByEntity entries) runs) :
    (∀ e ∈ entries, ∃! entity, e ∈ ((ix.install entries allocatorHint
        (runs.map (·.slice (sortEntriesByEntity entries)))).streams entity).getD []) ↔
      UniqueClockKeys entries := by
  simp only [mem_stream_install h, mem_clockValues, List.mem_reverse, mem_entriesOfEntity]
  constructor
  · intro hone e he e' he' hentity hkey
    obtain ⟨entity, ⟨⟨-, rfl⟩, hfirst⟩, -⟩ := hone e he
    obtain ⟨entity', ⟨⟨-, rfl⟩, hfirst'⟩, -⟩ := hone e' he'
    rw [hentity, hkey] at hfirst
    exact Option.some.inj (hfirst.symm.trans hfirst')
  · intro hkeys e he
    refine ⟨e.coord.entity, ⟨⟨he, rfl⟩, ?_⟩, fun entity hmem => hmem.1.2.symm⟩
    cases hfirst : (entriesOfEntity (sortEntriesByEntity entries) e.coord.entity).reverse.find?
        fun e' => e'.clockKey == e.clockKey with
    | none =>
        have habsent := List.find?_eq_none.mp hfirst e
          (List.mem_reverse.mpr (mem_entriesOfEntity.mpr ⟨he, rfl⟩))
        simp at habsent
    | some e' =>
        obtain ⟨he', hentity⟩ :=
          mem_entriesOfEntity.mp (List.mem_reverse.mp (List.mem_of_find?_eq_some hfirst))
        have hkey := List.find?_some hfirst
        rw [beq_iff_eq] at hkey
        rw [hkeys e he e' he' hentity.symm hkey.symm]

/-- An index with entity groups. -/
def groupedIndex : RoutedIndex :=
  ⟨.new .unbounded .warn, fun _ => none, .forConfig ⟨false, true, false⟩⟩

/-- A hint under which the entity groups come out right holds every computed run. -/
theorem computed_mem_of_harmless (hharmless : HarmlessHint entries hint)
    (hvalid : hint.validateDetailed entries (sortEntriesByEntity entries) = .ok ())
    {run : EntityRun} (hrun : run ∈ computedRuns entries) : run ∈ hint.entityRuns := by
  have hexact := exactRuns_computedRuns entries
  have hfits := (fits_of_valid hvalid).1
  obtain ⟨hinted, computed, hhinted, hcomputed, hsame⟩ := hharmless.same groupedIndex 0 1
  rw [restore_hinted hvalid] at hhinted
  obtain rfl := Except.ok.inj hhinted
  obtain ⟨-, rfl⟩ := restore_computed_ok_iff.mp hcomputed
  have hgroups : (SoAoSInner.fromSlices
      (hint.entityRuns.map (·.slice (sortEntriesByEntity entries)))).groups run.entity =
        (SoAoSInner.fromSlices
          ((computedRuns entries).map (·.slice (sortEntriesByEntity entries)))).groups run.entity := by
    cases hsame.groups with
    | some hgroup => rw [hgroup.groups]
  have hfull := hexact.full run hrun
  have hsome : entriesOfEntity (sortEntriesByEntity entries) run.entity ≠ [] := by
    rw [← hfull.slice_eq]
    exact hexact.filedRuns.nonempty run hrun
  rw [groups_fromSlices hexact, if_neg hsome, SoAoSInner.fromSlices] at hgroups
  dsimp only at hgroups
  rw [(filedRuns_of_fits hfits).filed] at hgroups
  obtain ⟨run', hrun', hentity, hgroup⟩ := (filedRuns_of_fits hfits).storeAll_some hgroups
  have hslice : run'.slice (sortEntriesByEntity entries) =
      entriesOfEntity (sortEntriesByEntity entries) run'.entity := by
    rw [hentity]
    exact congrArg EntityGroup.entries hgroup
  have hfits' := hfits run' hrun'
  have hfull' : FullRun (sortEntriesByEntity entries) run' :=
    ⟨hfits'.nonempty, hfits'.fits, hslice, hfits'.first, hfits'.last⟩
  rw [hfull.unique hfull' hentity.symm]
  exact hrun'

/-- An accepted hint leaves the restored index as the computed routing makes it exactly when its
runs are the computed ones in some order and clock keys tell the entries of an entity apart. -/
theorem routing_hint_harmless_iff
    (hvalid : hint.validateDetailed entries (sortEntriesByEntity entries) = .ok ()) :
    HarmlessHint entries hint ↔
      hint.entityRuns.Perm (RoutingSummary.fromSortedEntries entries 1).entityRuns ∧
        UniqueClockKeys entries := by
  change _ ↔ hint.entityRuns.Perm (computedRuns entries) ∧ _
  obtain ⟨hfits, hsum⟩ := fits_of_valid hvalid
  have hexact := exactRuns_computedRuns entries
  constructor
  · intro hharmless
    have hperm : hint.entityRuns.Perm (computedRuns entries) :=
      perm_of_subset hexact (fun run hrun => (hfits run hrun).nonempty) hsum
        fun run hrun => computed_mem_of_harmless hharmless hvalid hrun
    refine ⟨hperm, ?_⟩
    exact (existsUnique_stream_iff (hexact.of_perm hperm.symm)).mp
      (hharmless.oneStream groupedIndex _ 0 1 (restore_hinted hvalid))
  · rintro ⟨hperm, hkeys⟩
    have hhint := hexact.of_perm hperm.symm
    constructor
    · intro ix allocatorHint chunkCount
      refine ⟨_, _, restore_hinted hvalid, restore_computed_ok_iff.mpr ⟨?_, rfl⟩,
        sameRestored_of_exact hhint hexact⟩
      intro run hrun
      exact (hfits run (hperm.mem_iff.mpr hrun)).addressable
    · intro ix hinted allocatorHint chunkCount hrestored
      rw [restore_hinted hvalid] at hrestored
      obtain rfl := Except.ok.inj hrestored
      exact (existsUnique_stream_iff hhint).mpr hkeys
    · exact tiles_restoreChunkRanges entries.length hint

end Restored

/-! ### A run twice -/

/-- An entry of the entity at the sequence. -/
def routedEntry (entity : String) (sequence : Nat) : IndexEntry :=
  { (default : IndexEntry) with
    eventId := sequence + 1
    coord := ⟨entity, "main"⟩
    wallMs := sequence
    globalSequence := sequence }

def twoEntities : List IndexEntry :=
  [routedEntry "a" 0, routedEntry "b" 1]

/-- The run of the first entity listed twice: the lengths add up. -/
def repeatedRun : RoutingSummary where
  entryCount := 2
  chunkCount := 1
  chunks := [⟨0, 2, 0, 1⟩]
  entityRuns := [⟨"a", 0, 1, 0, 0⟩, ⟨"a", 0, 1, 0, 0⟩]

theorem routing_hint_harmless_computed :
    HarmlessHint twoEntities (.fromSortedEntries twoEntities 1) ↔
      (RoutingSummary.fromSortedEntries twoEntities 1).entityRuns.Perm
          (RoutingSummary.fromSortedEntries twoEntities 1).entityRuns ∧
        UniqueClockKeys twoEntities :=
  routing_hint_harmless_iff (by decide +kernel)

/-- The hint is accepted, and the second entity has no stream. -/
theorem repeated_run_loses_stream :
    repeatedRun.validateDetailed twoEntities (sortEntriesByEntity twoEntities) = .ok () ∧
    ((groupedIndex.restoreSortedEntriesImpl twoEntities 0 1 (some repeatedRun)).toOption.map
        fun ix => (ix.streams "a", ix.streams "b")) =
      some (some [routedEntry "a" 0], none) ∧
    ((groupedIndex.restoreSortedEntriesImpl twoEntities 0 1 none).toOption.map
        fun ix => (ix.streams "a", ix.streams "b")) =
      some (some [routedEntry "a" 0], some [routedEntry "b" 1]) ∧
    ¬ HarmlessHint twoEntities repeatedRun := by
  refine ⟨by decide +kernel, by decide +kernel, by decide +kernel, ?_⟩
  intro hharmless
  obtain ⟨hinted, computed, hhinted, hcomputed, hsame⟩ := hharmless.same groupedIndex 0 1
  have hlost : ((groupedIndex.restoreSortedEntriesImpl twoEntities 0 1
      (some repeatedRun)).toOption.map fun ix => ix.index.getLatestCommitted "b" 0) =
        some none := by decide +kernel
  have hkept : ((groupedIndex.restoreSortedEntriesImpl twoEntities 0 1 none).toOption.map
      fun ix => ix.index.getLatestCommitted "b" 0) = some (some (routedEntry "b" 1)) := by
    decide +kernel
  rw [hhinted] at hlost
  rw [hcomputed] at hkept
  have hhead : none = some (routedEntry "b" 1) :=
    (Option.some.inj hlost).symm.trans ((hsame.heads "b" 0).trans (Option.some.inj hkept))
  cases hhead

end Batpak.Store
