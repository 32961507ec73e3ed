/-
Module: Batpak.Proofs.CompactionRollback
Purpose: A compaction that fails before the swap, and exactly which errors cost something.
Trusted boundary: the operations of the rollback succeed
Main exports: PreSwapFault.Restorable, failed_compaction_unchanged_iff
-/
import Batpak.Proofs.CompactionCrash
import Batpak.Store.Lifecycle

namespace Batpak.Store

open Batpak.Util

/-! ### Relocated sources of other calls -/

theorem filter_insertEntry {α : Type*} (name : Nat) (a : α) (entries : List (Nat × α)) :
    (Files.insertEntry name a entries).filter (fun e => e.1 != name) =
      entries.filter fun e => e.1 != name := by
  induction entries with
  | nil => simp [Files.insertEntry]
  | cons e rest ih =>
      unfold Files.insertEntry
      split
      · simp
      · split
        · rename_i heq
          simp [heq]
        · simp only [List.filter_cons, ih]

/-- The relocated sources that do not carry the merged file's number. -/
def DataDir.otherTemps (mergedId : Nat) (dir : DataDir) : List (Nat × Segment) :=
  dir.compactSources.entries.filter fun e => e.1 != mergedId

/-- A call works on the relocated source of its own number only. -/
def DirOp.ownTemp (mergedId : Nat) : DirOp → Bool
  | .removeCompactSource id => id = mergedId
  | .relocate id => id = mergedId
  | .restoreSource id => id = mergedId
  | _ => true

theorem apply_otherTemps {mergedId : Nat} {op : DirOp} (hown : op.ownTemp mergedId = true)
    (dir : DataDir) : (op.apply dir).otherTemps mergedId = dir.otherTemps mergedId := by
  cases op with
  | removeCompactSource id =>
      have hid : id = mergedId := of_decide_eq_true hown
      simp [DirOp.apply, DataDir.otherTemps, hid]
  | relocate id =>
      have hid : id = mergedId := of_decide_eq_true hown
      subst hid
      simp only [DirOp.apply]
      split
      · exact filter_insertEntry id _ dir.compactSources.entries
      · rfl
  | restoreSource id =>
      have hid : id = mergedId := of_decide_eq_true hown
      subst hid
      simp only [DirOp.apply]
      split
      · simp [DataDir.otherTemps]
      · rfl
  | writeMarker marker => rfl
  | removeSegment id => rfl
  | createSegment id headerBytes => rfl
  | appendChunk id chunk => rfl
  | syncSegment id => rfl
  | readSources => rfl
  | rebuildIndex => rfl
  | clearMarker => rfl

theorem runOps_otherTemps {mergedId : Nat} {ops : List DirOp}
    (hown : ∀ op ∈ ops, op.ownTemp mergedId = true) (dir : DataDir) :
    (runOps ops dir).otherTemps mergedId = dir.otherTemps mergedId := by
  induction ops generalizing dir with
  | nil => rfl
  | cons op ops ih =>
      change (runOps ops (op.apply dir)).otherTemps mergedId = _
      rw [ih fun op hop => hown op (List.mem_cons_of_mem _ hop)]
      exact apply_otherTemps (hown op List.mem_cons_self) dir

theorem preSwapOps_ownTemp (headerBytes mergedId : Nat) (ids : List Nat)
    (copied : Except StoreError (List Chunk)) :
    ∀ op ∈ preSwapOps headerBytes mergedId ids copied, op.ownTemp mergedId = true := by
  intro op hop
  simp only [preSwapOps, prepareOps, copyOps, List.mem_append, List.mem_cons, List.mem_map,
    List.not_mem_nil, or_false] at hop
  rcases hop with (rfl | rfl | rfl | rfl | rfl | rfl) | ⟨c, -, rfl⟩ | rfl | rfl
  · rfl
  · simp [DirOp.ownTemp]
  · simp [DirOp.ownTemp]
  · rfl
  · rfl
  · rfl
  · rfl
  · rfl
  · rfl

theorem preSwapOps_take (headerBytes mergedId : Nat) (ids : List Nat)
    (copied : Except StoreError (List Chunk)) {j : Nat} (hj : j ≤ 6) :
    (preSwapOps headerBytes mergedId ids copied).take j =
      (prepareOps headerBytes mergedId ids).take j :=
  List.take_append_of_le_length (by simpa [prepareOps] using hj)

/-! ### What the rollback does -/

namespace Layout

variable {l : Layout} {dir : DataDir}

/-- With the relocation on record everything is put back. -/
theorem rollback_restores (h : l.Relocated dir ∨ ∃ copied, l.Copying copied dir) :
    (runOps (rollbackOps l.mergedId true) dir).marker = none ∧
      (runOps (rollbackOps l.mergedId true) dir).segments.entries =
        l.sources ++ [(l.activeId, l.active)] ∧
      (runOps (rollbackOps l.mergedId true) dir).compactSources.entries =
        dir.otherTemps l.mergedId := by
  have hmoved : l.Relocated ((DirOp.removeSegment l.mergedId).apply dir) := by
    rcases h with h | ⟨copied, h⟩
    · exact h.removeSegment
    · exact h.removeSegment
  refine ⟨rfl, hmoved.restoreSource.2, ?_⟩
  have htemp : dir.compactSources.find? l.mergedId = some l.first := hmoved.2.2
  simp [runOps, rollbackOps, DirOp.apply, htemp, DataDir.otherTemps]

/-- A prefix of the operations before the swap that includes the relocation. -/
theorem preSwap_moved (headerBytes : Nat) (copied : Except StoreError (List Chunk))
    (h : l.Start dir) {j : Nat} (hj : 2 < j) :
    l.Relocated (runOps ((preSwapOps headerBytes l.mergedId l.sourceIds copied).take j) dir) ∨
      ∃ chunks, l.Copying chunks
        (runOps ((preSwapOps headerBytes l.mergedId l.sourceIds copied).take j) dir) := by
  by_cases hcreated : j < 5
  · left
    rw [preSwapOps_take _ _ _ _ (by omega)]
    exact prepare_relocated headerBytes h hj hcreated
  · right
    exact ⟨_, preSwap_copying headerBytes _ h (by omega)⟩

/-- Before the relocation is on record the rollback takes the first source away. -/
theorem rollback_drops_first (headerBytes : Nat) (copied : Except StoreError (List Chunk))
    (h : l.Start dir) {j : Nat} (hpos : 0 < j) (hj : j ≤ 3) :
    (runOps ((preSwapOps headerBytes l.mergedId l.sourceIds copied).take j ++
      rollbackOps l.mergedId false) dir).segments.entries =
        l.others ++ [(l.activeId, l.active)] := by
  rw [runOps_append, preSwapOps_take _ _ _ _ (by omega)]
  by_cases hmoved : j < 3
  · exact Files.filter_ne_head (prepare_inPlace headerBytes h hpos hmoved).2
  · exact (prepare_relocated headerBytes h (by omega) (by omega)).removeSegment.2.1

end Layout

/-! ### Unchanged -/

/-- The index an open recovers from the directory, given the side files. While a marker is
pending the snapshots are not looked at; a relocated source is listed under a name that is no
segment name, and the index scan passes it by. -/
def DataDir.recovered (cfg : LifecycleConfig) (rt : Runtime) (side : SideFiles)
    (ranges : Option CancelledVisibilityRanges) (dir : DataDir) :
    Except StoreError StoreIndex :=
  dir.segmentPaths >>= fun files =>
    openIndex rt cfg.retention cfg.overflow (if dir.marker.isSome then none else side.snapshot)
      side.idemp ranges
      ((files.filter fun e => DataDir.listed dir.segments.entries e.1).map Prod.snd)

/-- Nothing of the failed call is left: the segment files are the same, there is no marker
and no relocated source, the live index is the same and the next open recovers the same. -/
structure Unchanged (cfg : LifecycleConfig) (rt : Runtime) (side : SideFiles)
    (ranges : Option CancelledVisibilityRanges) (before after : LiveStore) : Prop where
  segments : after.dir.segments.entries = before.dir.segments.entries
  marker : after.dir.marker = none
  temps : after.dir.compactSources.entries = []
  index : after.index = before.index
  recovered : after.dir.recovered cfg rt side ranges = before.dir.recovered cfg rt side ranges

/-- When a failing call has nothing to answer for. A marker that was not written must not
have been there before either. Any other error has to come after the relocation of the
first source, in a directory where no other relocated source waits and no earlier marker
decides what an open recovers. -/
def PreSwapFault.Restorable (cfg : LifecycleConfig) (rt : Runtime) (side : SideFiles)
    (ranges : Option CancelledVisibilityRanges) (dir : DataDir) (fault : PreSwapFault) : Prop :=
  if fault.op = 0 then
    fault.effect = false ∧ dir.marker = none ∧ dir.compactSources.entries = []
  else
    2 < fault.op ∧ dir.otherTemps ((dir.sealedSegments.head?.map Prod.fst).getD 0) = [] ∧
      dir.recovered cfg rt side ranges =
        { dir with marker := none }.recovered cfg rt side ranges

theorem restorable_of_clean {cfg : LifecycleConfig} {rt : Runtime} {side : SideFiles}
    {ranges : Option CancelledVisibilityRanges} {dir : DataDir} {fault : PreSwapFault}
    (hmarker : dir.marker = none) (htemps : dir.compactSources.entries = [])
    (hop : 2 < fault.op) : fault.Restorable cfg rt side ranges dir := by
  obtain ⟨segments, temps, marker⟩ := dir
  subst hmarker
  have hlate : fault.op ≠ 0 := Nat.ne_of_gt (Nat.zero_lt_of_lt hop)
  have hnone : temps.entries = [] := htemps
  simp [PreSwapFault.Restorable, hlate, hop, DataDir.otherTemps, hnone]

/-! ### A failed call -/

section Failed

variable {cfg : LifecycleConfig} {rt : Runtime} {side : SideFiles}
  {ranges : Option CancelledVisibilityRanges} {l : Layout}

/-- An open looks at the segment files and, under a marker, at the relocated sources. -/
theorem recovered_of_unmarked {dir : DataDir} (hmarker : dir.marker = none) (other : DataDir)
    (hentries : dir.segments.entries = other.segments.entries) :
    dir.recovered cfg rt side ranges =
      { other with marker := none }.recovered cfg rt side ranges := by
  simp only [DataDir.recovered, DataDir.segmentPaths, hmarker, hentries]

theorem sealedSegments_head {dir : DataDir} (h : l.Start dir) :
    (dir.sealedSegments.head?.map Prod.fst).getD 0 = l.mergedId := by
  rw [sealedSegments_eq h]
  rfl

/-- The directory after a failed call is as before exactly for the restorable errors. -/
theorem failedOps_unchanged_iff (headerBytes : Nat) (copied : Except StoreError (List Chunk))
    (fault : PreSwapFault) (store : LiveStore) (h : l.Start store.dir) :
    Unchanged cfg rt side ranges store
        { store with
          dir := runOps (failedOps (preSwapOps headerBytes l.mergedId l.sourceIds copied)
            l.mergedId fault) store.dir } ↔
      fault.Restorable cfg rt side ranges store.dir := by
  obtain ⟨op, effect⟩ := fault
  unfold PreSwapFault.Restorable
  rw [sealedSegments_head h]
  by_cases hop : op = 0
  · subst hop
    cases effect with
    | false =>
        simp only [if_true, true_and]
        constructor
        · rintro ⟨-, hmarker, htemps, -, -⟩
          exact ⟨hmarker, htemps⟩
        · rintro ⟨hmarker, htemps⟩
          exact ⟨rfl, hmarker, htemps, rfl, rfl⟩
    | true =>
        -- the marker is in place and nothing takes it back
        simp only [if_true, Bool.true_eq_false, false_and, iff_false]
        rintro ⟨-, hmarker, -, -, -⟩
        cases hmarker
  · simp only [hop, if_false, failedOps]
    by_cases hmoved : 2 < op
    · simp only [hmoved, decide_true, true_and]
      generalize hj : (if effect = true then op + 1 else op) = j
      have hlate : 2 < j := by
        split at hj
        · omega
        · omega
      obtain ⟨hmarker, hentries, htemps⟩ :=
        Layout.rollback_restores (Layout.preSwap_moved headerBytes copied h hlate)
      rw [← Layout.runOps_append] at hmarker hentries htemps
      rw [runOps_otherTemps fun op hop =>
        preSwapOps_ownTemp _ _ _ _ op (List.mem_of_mem_take hop)] at htemps
      have hsame := hentries.trans h.symm
      have hrecovered : DataDir.recovered cfg rt side ranges _ = _ :=
        recovered_of_unmarked hmarker store.dir hsame
      constructor
      · intro hunchanged
        exact ⟨htemps.symm.trans hunchanged.temps, hunchanged.recovered.symm.trans hrecovered⟩
      · rintro ⟨hnone, hopens⟩
        exact ⟨hsame, hmarker, htemps.trans hnone, rfl, hrecovered.trans hopens.symm⟩
    · -- the rollback deletes the first source, which still lies under the merged file's name
      simp only [hmoved, decide_false, false_and, iff_false]
      generalize hj : (if effect = true then op + 1 else op) = j
      have hearly : 0 < j ∧ j ≤ 3 := by
        split at hj
        · omega
        · omega
      have hdropped := Layout.rollback_drops_first headerBytes copied h hearly.1 hearly.2
      intro hunchanged
      have hlost := hdropped.symm.trans (hunchanged.segments.trans h)
      have hlength := congrArg List.length hlost
      simp [Layout.sources] at hlength

/-- A call fails only when there is something to compact, and then performs the operations
of its error. -/
theorem compact_failed {minSegments : Nat} {strategy : CompactionStrategy}
    {fails : Option PreSwapFault} {fault : PreSwapFault} {store : LiveStore}
    (h : (store.compact cfg rt minSegments strategy ranges fails).1 = .failed fault) :
    ∃ l : Layout, l.Start store.dir ∧ ∃ copied,
      (store.compact cfg rt minSegments strategy ranges fails).2 =
        { store with
          dir := runOps (failedOps (preSwapOps cfg.store.headerBytes l.mergedId l.sourceIds copied)
            l.mergedId fault) store.dir } := by
  unfold LiveStore.compact at h ⊢
  cases hsealed : store.dir.sealedSegments with
  | nil =>
      rw [hsealed] at h
      cases h
  | cons source others =>
      rw [hsealed] at h
      -- below the newest file there is a sealed one, so the directory has a layout
      obtain ⟨init, last, hentries⟩ : ∃ init last,
          store.dir.segments.entries = init ++ [last] := by
        rcases List.eq_nil_or_concat store.dir.segments.entries with hnil | ⟨init, last, hlast⟩
        · simp [DataDir.sealedSegments, hnil] at hsealed
        · exact ⟨init, last, by simpa using hlast⟩
      have hinit := (sealedSegments_eq hentries).symm.trans hsealed
      rw [hinit] at hentries
      obtain ⟨l, hstart, hsources, hmerged⟩ := exists_layout hentries
      refine ⟨l, hstart, copiedChunks rt strategy ((source :: others).map Prod.snd), ?_⟩
      have hids : l.sourceIds = (source :: others).map Prod.fst := by
        rw [Layout.sourceIds, hsources]
      rw [hmerged, hids]
      simp only at h ⊢
      split at h
      · cases h
      · rename_i henough
        rw [if_neg henough]
        split at h
        · cases h
          rfl
        · cases h

end Failed

/-- Whatever a compaction fails at before the swap: the store is as if the call had never
been made exactly when the error came after the relocation of the first source, or was a
marker that was not written, and the directory held no remains of an earlier call. -/
theorem failed_compaction_unchanged_iff (cfg : LifecycleConfig) (rt : Runtime)
    (side : SideFiles) (minSegments : Nat) (strategy : CompactionStrategy)
    (ranges : Option CancelledVisibilityRanges) (fails : Option PreSwapFault)
    (fault : PreSwapFault) (store : LiveStore)
    (h : (store.compact cfg rt minSegments strategy ranges fails).1 = .failed fault) :
    Unchanged cfg rt side ranges store
        (store.compact cfg rt minSegments strategy ranges fails).2 ↔
      fault.Restorable cfg rt side ranges store.dir := by
  obtain ⟨l, hstart, copied, hafter⟩ := compact_failed h
  rw [hafter]
  exact failedOps_unchanged_iff cfg.store.headerBytes copied fault store hstart

/-- Two sealed segments with one event each, an empty active one, and the index an open
gives them. -/
def twoSealedStore : LiveStore where
  dir := run (dirStep .unsigned 32) (.fresh 32) ((twoSealedThenMerge .never).take 4)
  index := ((run (dirStep .unsigned 32) (.fresh 32)
    ((twoSealedThenMerge .never).take 4)).recovered .small .unsigned ⟨none, none⟩
      none).toOption.getD (.new .unbounded .warn)

/-- The merged file cannot be created: everything is put back. -/
theorem failed_creation_unchanged :
    (twoSealedStore.compact .small .unsigned 2 .merge none (some ⟨4, false⟩)).1 =
        .failed ⟨4, false⟩ ∧
      Unchanged .small .unsigned ⟨none, none⟩ none twoSealedStore
        (twoSealedStore.compact .small .unsigned 2 .merge none (some ⟨4, false⟩)).2 := by
  have hfailed : (twoSealedStore.compact .small .unsigned 2 .merge none (some ⟨4, false⟩)).1 =
      .failed ⟨4, false⟩ := by
    decide +kernel
  refine ⟨hfailed, (failed_compaction_unchanged_iff _ _ _ _ _ _ _ _ _ hfailed).mpr ?_⟩
  exact restorable_of_clean (by decide +kernel) (by decide +kernel) (by decide)

/-- The first source cannot be renamed: the rollback deletes it. -/
theorem failed_rename_deletes_source :
    ¬∀ (cfg : LifecycleConfig) (rt : Runtime) (side : SideFiles) (minSegments : Nat)
      (strategy : CompactionStrategy) (ranges : Option CancelledVisibilityRanges)
      (fails : Option PreSwapFault) (fault : PreSwapFault) (store : LiveStore),
      (store.compact cfg rt minSegments strategy ranges fails).1 = .failed fault →
      Unchanged cfg rt side ranges store
        (store.compact cfg rt minSegments strategy ranges fails).2 := by
  intro h
  have hsame := (h .small .unsigned ⟨none, none⟩ 2 .merge none (some ⟨2, false⟩) ⟨2, false⟩
    twoSealedStore (by decide +kernel)).segments
  have hids : (twoSealedStore.compact .small .unsigned 2 .merge none
      (some ⟨2, false⟩)).2.dir.segments.entries.map Prod.fst = [2, 3] := by
    decide +kernel
  have hbefore : twoSealedStore.dir.segments.entries.map Prod.fst = [1, 2, 3] := by
    decide +kernel
  rw [hsame, hbefore] at hids
  simp at hids

end Batpak.Store
