/-
Module: Batpak.Proofs.SnapshotRules
Purpose: What the round trips of the two index snapshots share: the routing summary, the entries
  and their order.
Trusted boundary: none
Main exports: InternedEntry.reloaded, toIndexEntry_ok_iff
-/
import Batpak.Proofs.RoutingHints
import Batpak.Store.IndexSnapshot
import Batpak.Store.SegmentFile

namespace Batpak.Store

open Batpak.Util

/-! ### Computed routing fits its types -/

section Routing

variable {entries : List IndexEntry}

theorem sequenceAt_lt {bound : Nat} (hbound : 0 < bound)
    (h : ∀ e ∈ entries, e.globalSequence < bound) (i : Nat) : sequenceAt entries i < bound := by
  rw [sequenceAt]
  cases hat : entries[i]? with
  | none => exact hbound
  | some e => exact h e (List.mem_of_getElem? hat)

theorem length_consecutive_le (start : Nat) (lens : List Nat) :
    (consecutive start lens).length ≤ lens.length := by
  induction lens generalizing start with
  | nil => exact Nat.le_refl _
  | cons len rest ih =>
      rw [consecutive, List.length_cons]
      split
      · exact Nat.le_succ_of_le (ih start)
      · rw [List.length_cons]
        exact Nat.succ_le_succ (ih _)

theorem bound_of_mem_consecutive {start : Nat} {lens : List Nat} {r : Nat × Nat}
    (h : r ∈ consecutive start lens) : r.1 + r.2 ≤ start + lens.sum := by
  induction lens generalizing start with
  | nil => cases h
  | cons len rest ih =>
      rw [consecutive] at h
      rw [List.sum_cons]
      split at h
      case isTrue hzero =>
        have hrest := ih h
        omega
      case isFalse =>
        rcases List.mem_cons.mp h with rfl | h
        · dsimp only
          omega
        · have hrest := ih h
          omega

/-- The summary a writer computes is one its serialized form can hold. -/
theorem fits_fromSortedEntries {chunkCount : Nat} (hlength : entries.length < 2 ^ 64)
    (hsequence : ∀ e ∈ entries, e.globalSequence < 2 ^ 64) (hchunks : chunkCount < 2 ^ 64) :
    routingSerde.Fits (RoutingSummary.fromSortedEntries entries chunkCount) := by
  have hperm : (sortEntriesByEntity entries).Perm entries := List.perm_insertionSort _ _
  have hsame := hperm.length_eq
  refine ⟨?entryCount, ?chunkCount, ?chunks, ?runs⟩
  case entryCount =>
    change (sortEntriesByEntity entries).length < 2 ^ 64
    rw [hsame]
    exact hlength
  case chunkCount =>
    change (List.map _ _).length < 2 ^ 64
    have hle := length_consecutive_le 0 (evenLengths entries.length (max chunkCount 1))
    rw [List.length_map]
    have hparts : (evenLengths entries.length (max chunkCount 1)).length = max chunkCount 1 := by
      simp [evenLengths]
    omega
  case chunks =>
    intro c hc
    obtain ⟨r, hr, rfl⟩ := List.mem_map.mp hc
    have hbound := bound_of_mem_consecutive hr
    rw [sum_evenLengths (by omega)] at hbound
    exact ⟨by dsimp only; omega, by dsimp only; omega,
      sequenceAt_lt (by decide) hsequence _, sequenceAt_lt (by decide) hsequence _⟩
  case runs =>
    intro run hrun
    have hexact := exactRuns_entityRunsFrom (entitiesAscend_sortEntriesByEntity entries)
    have hfull := hexact.full run hrun
    have hfits := hfull.fits
    have hslice : ∀ e ∈ run.slice (sortEntriesByEntity entries), e.globalSequence < 2 ^ 64 := by
      intro e he
      exact hsequence e (hperm.mem_iff.mp ((stretch_sublist _ _ _).subset he))
    refine ⟨by omega, by omega, ?_, ?_⟩
    · obtain ⟨e, hhead, hfirst⟩ := Option.map_eq_some_iff.mp hfull.first
      rw [← hfirst]
      exact hslice e (List.mem_of_head? hhead)
    · obtain ⟨e, hlast, hsequence'⟩ := Option.map_eq_some_iff.mp hfull.last
      rw [← hsequence']
      exact hslice e (List.mem_of_getLast? hlast)

end Routing

/-! ### Entries that come back -/

/-- The entry as a snapshot gives it back. Where an entry came from is not stored, and a
causation id of zero reads as none. -/
def InternedEntry.reloaded (e : InternedEntry) : InternedEntry :=
  { e with entry := { e.entry with
      causationId := e.entry.causationId.filter fun id => id ≠ 0
      provenance := none } }

theorem InternedEntry.Resolves.reloaded {strings : List String} {e : InternedEntry}
    (h : e.Resolves strings) : e.reloaded.Resolves strings := h

/-- The entry of a row at a coordinate. -/
def ColdStartIndexRow.entryAt (row : ColdStartIndexRow) (coord : Coordinate) : InternedEntry :=
  ⟨⟨row.eventId, row.correlationId, row.causationId, coord, row.kind, row.wallMs, row.clock,
    row.dagLane, row.dagDepth, row.hashChain, row.diskPos, row.globalSequence, [], none⟩,
    row.entityId, row.scopeId⟩

/-- A row whose ids resolve becomes an entry once its coordinate passes the check. -/
theorem toIndexEntry_ok_iff {row : ColdStartIndexRow} {strings : List String}
    {coord : Coordinate} (hentity : strings[row.entityId]? = some coord.entity)
    (hscope : strings[row.scopeId]? = some coord.scope) {e : InternedEntry} :
    row.toIndexEntry strings = .ok e ↔ coord.validate = .ok () ∧ e = row.entryAt coord := by
  have hresolve : row.resolveStrings strings = .ok coord := by
    unfold ColdStartIndexRow.resolveStrings ColdStartIndexRow.resolvePart
    rw [hentity, hscope]
    rfl
  unfold ColdStartIndexRow.toIndexEntry
  rw [hresolve]
  constructor
  · intro h
    obtain ⟨_, hcoord, h⟩ := bindOk_iff.mp h
    cases hcoord
    obtain ⟨⟨⟩, hvalid, h⟩ := bindOk_iff.mp h
    cases h
    exact ⟨mapError_ok_iff.mp hvalid, rfl⟩
  · rintro ⟨hvalid, rfl⟩
    apply bindOk_iff.mpr
    refine ⟨coord, rfl, bindOk_iff.mpr ⟨(), mapError_ok_iff.mpr hvalid, rfl⟩⟩

/-! ### The index that is written -/

/-- The values of an index within their types. -/
structure InternedIndex.Typed (index : InternedIndex) : Prop where
  entries : ∀ e ∈ index.entries, e.Typed
  count : index.entries.length < 2 ^ 64
  globalSequence : index.globalSequence < 2 ^ 64

def InternedIndex.bySequence (index : InternedIndex) : List InternedEntry :=
  index.entries.insertionSort fun a b => a.entry.globalSequence ≤ b.entry.globalSequence

theorem InternedIndex.mem_bySequence {index : InternedIndex} {e : InternedEntry} :
    e ∈ index.bySequence ↔ e ∈ index.entries :=
  (List.perm_insertionSort _ _).mem_iff

theorem InternedIndex.length_bySequence (index : InternedIndex) :
    index.bySequence.length = index.entries.length :=
  (List.perm_insertionSort _ _).length_eq

theorem InternedIndex.resolves_bySequence (index : InternedIndex) :
    ∀ e ∈ index.bySequence, e.Resolves index.interner.fullSnapshot := by
  intro e he
  rw [index.sound.fullSnapshot]
  exact index.resolves e (mem_bySequence.mp he)

/-! ### An index of two events -/

namespace Snapshot

def reader : SegmentReader :=
  ⟨.ieee, .shortest 8⟩

/-- The watermark segment has a hundred bytes. -/
def dir : ColdStartDir where
  segmentLen id := if id = 1 then some 100 else none
  segmentPath id := toString id
  errorText _ := "error"

def event (id sequence : Nat) (causationId : Option Nat) : IndexEntry where
  eventId := id
  correlationId := id
  causationId := causationId
  coord := ⟨"user:1", "chat"⟩
  kind := ⟨0x1001⟩
  wallMs := 7
  clock := sequence
  dagLane := 0
  dagDepth := 0
  hashChain := ⟨0, id⟩
  diskPos := ⟨1, 49, 40⟩
  globalSequence := sequence
  receiptExtensions := [("app.note", [1, 2])]
  provenance := none

/-- The second event was caused by the first, or by the id of zero. -/
def index (causationId : Nat) : InternedIndex :=
  (([event 6 1 (some causationId), event 5 0 none].foldlM InternedIndex.publish
    InternedIndex.empty).toOption).getD InternedIndex.empty

theorem entries_index (causationId : Nat) : (index causationId).entries =
    [⟨event 6 1 (some causationId), 1, 2⟩, ⟨event 5 0 none, 1, 2⟩] := by
  rfl

theorem typed_event {id sequence : Nat} {causationId : Option Nat} (hid : id < 256 ^ 16)
    (hsequence : sequence < 2 ^ 32) (hcausation : ∀ c ∈ causationId, c < 256 ^ 16) :
    InternedEntry.Typed ⟨event id sequence causationId, 1, 2⟩ where
  eventId := hid
  correlationId := hid
  causationId := hcausation
  entityId := by simp
  scopeId := by simp
  kind := by simp [event]
  wallMs := by simp [event]
  clock := hsequence
  dagLane := by simp [event]
  dagDepth := by simp [event]
  prevHash := by simp [event]
  eventHash := hid.trans (by decide)
  segmentId := by simp [event]
  offset := by simp [event]
  length := by simp [event]
  globalSequence := hsequence.trans (by decide)
  receiptExtensions := by
    refine ⟨List.pairwise_singleton _ _, ?_⟩
    intro e he
    exact ⟨trivial, trivial⟩

theorem fits_noFallbacks : fallbackStatsSerde.Fits .none :=
  ⟨by decide, by decide, ⟨List.Pairwise.nil, by simp [ReservedKindFallbackStats.none]⟩,
    ⟨List.Pairwise.nil, by simp [ReservedKindFallbackStats.none]⟩⟩

theorem typed_index {causationId : Nat} (h : causationId < 256 ^ 16) :
    (index causationId).Typed := by
  constructor
  case entries =>
    rw [entries_index]
    intro e he
    rcases List.mem_cons.mp he with rfl | he
    · exact typed_event (by decide) (by decide) (by simpa using h)
    · cases List.mem_singleton.mp he
      exact typed_event (by decide) (by decide) (by simp)
  case count =>
    rw [entries_index]
    simp
  case globalSequence =>
    change 2 < 2 ^ 64
    decide

end Snapshot

end Batpak.Store
