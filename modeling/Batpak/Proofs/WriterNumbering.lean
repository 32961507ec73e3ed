/-
Module: Batpak.Proofs.WriterNumbering
Purpose: The writer keeps sequences: entries, footer rows and collected rows carry the
  sequence their event was written with, whatever fails.
Trusted boundary: none
Main exports: Numbered, writerRules_numbered
-/
import Batpak.Proofs.DiskInvariant

namespace Batpak.Store

open Batpak.Util

/-! ### The invariant of a running writer -/

/-- The event was written, and its receipt reported, with this sequence. -/
def WrittenAs (p : Option Provenance) (sequence : Nat) : Prop :=
  p.map (·.sequence) = some sequence

instance (p : Option Provenance) (sequence : Nat) : Decidable (WrittenAs p sequence) :=
  inferInstanceAs (Decidable (_ = _))

theorem WrittenAs.of_provenance {p : Option Provenance} {sequence : Nat} {fence : Option Nat}
    (h : p = some ⟨sequence, fence⟩) : WrittenAs p sequence := by
  rw [h]
  rfl

def RowsHonest (rows : List SidxEntry) : Prop :=
  ∀ row ∈ rows, WrittenAs row.provenance row.globalSequence

/-- Every footer stores the sequences its events were written with. -/
def FootersHonest (segments : List Segment) : Prop :=
  ∀ seg ∈ segments, ∀ rows, seg.footer = some rows → RowsHonest rows

/-- Entries keep their written sequence and lie below the allocator. -/
def EntriesHonest (entries : List IndexEntry) (allocated : Nat) : Prop :=
  ∀ e ∈ entries, WrittenAs e.provenance e.globalSequence ∧ e.globalSequence < allocated

structure Numbered (s : WriterCore) : Prop where
  entries : EntriesHonest s.index.inserted s.index.gate.allocated
  footers : FootersHonest s.segments
  collected : RowsHonest s.sidxCollector

theorem EntriesHonest.mono {entries : List IndexEntry} {m n : Nat}
    (h : EntriesHonest entries m) (hmn : m ≤ n) : EntriesHonest entries n :=
  fun e he => ⟨(h e he).1, Nat.lt_of_lt_of_le (h e he).2 hmn⟩

theorem footersHonest_append {a b : List Segment} :
    FootersHonest (a ++ b) ↔ FootersHonest a ∧ FootersHonest b := by
  constructor
  · intro h
    exact ⟨fun seg hseg => h seg (List.mem_append_left _ hseg),
      fun seg hseg => h seg (List.mem_append_right _ hseg)⟩
  · rintro ⟨ha, hb⟩ seg hseg
    rcases List.mem_append.mp hseg with hseg | hseg
    · exact ha seg hseg
    · exact hb seg hseg

theorem footersHonest_singleton {seg : Segment} :
    FootersHonest [seg] ↔ ∀ rows, seg.footer = some rows → RowsHonest rows := by
  simp [FootersHonest]

/-- The invariant reads the index, the footers and the collected rows. -/
theorem Numbered.transfer {s s' : WriterCore} (h : Numbered s)
    (hinserted : s'.index.inserted = s.index.inserted)
    (hallocated : s.index.gate.allocated ≤ s'.index.gate.allocated)
    (hsealed : s'.sealed = s.sealed) (hactive : s'.active.footer = s.active.footer)
    (hrows : s'.sidxCollector = s.sidxCollector) : Numbered s' where
  entries := by
    rw [hinserted]
    exact h.entries.mono hallocated
  footers := by
    have hfooters := h.footers
    rw [WriterCore.segments, footersHonest_append, footersHonest_singleton] at hfooters ⊢
    rw [hsealed, hactive]
    exact hfooters
  collected := by
    rw [hrows]
    exact h.collected

/-- Entries with their allocator, and every footer row. -/
theorem numbered_iff {s : WriterCore} :
    Numbered s ↔ EntriesHonest s.index.inserted s.index.gate.allocated ∧
      DiskAll (fun _ => True) (fun row => WrittenAs row.provenance row.globalSequence) s.disk :=
  ⟨fun h => ⟨h.entries, fun _ _ _ _ => trivial, h.footers, h.collected⟩,
    fun h => ⟨h.1, h.2.rows, h.2.collected⟩⟩

theorem Numbered.sameFooting {s s' : WriterCore} (h : Numbered s) (hs : SameFooting s s')
    (hdisk : s'.disk = s.disk) : Numbered s' := by
  rw [numbered_iff, hs.inserted, hs.allocated, hdisk]
  exact numbered_iff.mp h

/-! ### Appends and batches -/

section Appends

variable (cfg : StoreConfig) (rt : Runtime) (flt : Faults) {fenced : Bool} {s : WriterCore}

/-- The entry of an append keeps the sequence that was allocated to it. -/
theorem handleAppend_entries (req : AppendRequest)
    (h : EntriesHonest s.index.inserted s.index.gate.allocated) :
    EntriesHonest (finalState (handleAppend cfg rt flt req fenced s)).index.inserted
      (finalState (handleAppend cfg rt flt req fenced s)).index.gate.allocated := by
  have hcases := handleAppend_cases cfg rt flt req fenced s
  generalize handleAppend cfg rt flt req fenced s = outcome at hcases ⊢
  cases hcases with
  | failed e s' quiet =>
      rw [finalState_error, quiet.inserted, quiet.gate]
      exact h
  | replayed key receipt keyed guarded known => exact h
  | committed st pos s₀ s₁ quiet guarded fresh sameSegment prepared =>
      obtain ⟨-, -, -, -, hseq, hprov⟩ := stageAppend_ok prepared.staged
      have hsame := (publishCommitted_sameFooting fenced st.globalSequence (st.globalSequence + 1)
        st.point [st.notification] (commitState req.idempotencyKey.isSome st pos s₁)).finalState
      have hbefore : EntriesHonest s₁.index.inserted s₁.index.gate.allocated := by
        rw [prepared.diskOnly.index, quiet.inserted, quiet.gate]
        exact h
      unfold publishAppend
      rw [finalState_bind_pure, hsame.inserted, hsame.allocated]
      intro e he
      rcases List.mem_cons.mp he with rfl | he
      · refine ⟨.of_provenance (hseq ▸ hprov), ?_⟩
        change st.globalSequence < s₁.index.gate.allocated + 1
        rw [prepared.diskOnly.index, hseq]
        exact Nat.lt_succ_self _
      · exact ⟨(hbefore e he).1, Nat.lt_succ_of_lt (hbefore e he).2⟩

theorem handleAppend_numbered (req : AppendRequest) (h : Numbered s) :
    Numbered (finalState (handleAppend cfg rt flt req fenced s)) := by
  obtain ⟨hentries, hdisk⟩ := numbered_iff.mp h
  refine numbered_iff.mpr ⟨handleAppend_entries cfg rt flt req hentries,
    (handleAppend_effect cfg rt flt req fenced s).diskAll hdisk ?_⟩
  intro st hst
  obtain ⟨-, -, -, -, hseq, hprov⟩ := stageAppend_ok hst
  exact ⟨trivial, fun pos => .of_provenance (hseq ▸ hprov)⟩

theorem handleAppendBatch_entries (nowUs : Int) (items : List BatchAppendItem)
    (h : EntriesHonest s.index.inserted s.index.gate.allocated) :
    EntriesHonest (finalState (handleAppendBatch cfg rt flt nowUs items fenced s)).index.inserted
      (finalState (handleAppendBatch cfg rt flt nowUs items fenced s)).index.gate.allocated := by
  have hcases := handleAppendBatch_cases cfg rt flt nowUs items fenced s
  generalize handleAppendBatch cfg rt flt nowUs items fenced s = outcome at hcases ⊢
  cases hcases with
  | failed e n s' quiet =>
      rw [finalState_error, quiet.inserted, quiet.gate]
      exact h.mono (Nat.le_add_right _ _)
  | replayed receipts known => exact h
  | committed staged receipts s₀ s₁ nonempty fresh homogeneous quiet prepared =>
      obtain ⟨ctx, hfirst, -, hfrom⟩ := prepared.stagedFrom
      have hsame := (publishCommitted_sameFooting fenced s.index.globalSequence
        (s.index.globalSequence + items.length) (batchFrontier staged)
        (staged.map (·.notification))
        (commitBatchState (batchKeyed items) staged receipts s₁)).finalState
      unfold publishBatch
      rw [finalState_bind_pure, hsame.inserted, hsame.allocated]
      intro e he
      simp only [commitBatchState, StoreIndex.insertBatch_inserted, StoreIndex.insertBatch_gate,
        List.mem_append, List.mem_reverse] at he ⊢
      rw [prepared.diskOnly.index, quiet.gate]
      rcases he with he | he
      · obtain ⟨p, hp, rfl⟩ := List.mem_map.mp he
        obtain ⟨hprov, -, hlt⟩ := hfrom.sequences p.1 (List.of_mem_zip hp).1
        rw [hfirst] at hlt
        exact ⟨.of_provenance hprov, hlt⟩
      · rw [prepared.diskOnly.index, quiet.inserted] at he
        exact h.mono (Nat.le_add_right _ _) e he

theorem handleAppendBatch_numbered (nowUs : Int) (items : List BatchAppendItem) (h : Numbered s) :
    Numbered (finalState (handleAppendBatch cfg rt flt nowUs items fenced s)) := by
  obtain ⟨hentries, hdisk⟩ := numbered_iff.mp h
  refine numbered_iff.mpr ⟨handleAppendBatch_entries cfg rt flt nowUs items hentries,
    (handleAppendBatch_effect cfg rt flt nowUs items fenced s).diskAll hdisk ?_
      fun _ _ _ _ _ => trivial⟩
  rintro staged ⟨ctx, -, -, hfrom⟩ st hst
  exact ⟨trivial, fun pos => .of_provenance (hfrom.sequences st hst).1⟩

end Appends

/-- The writer never gives an event another sequence than the one its receipt reported. -/
theorem writerRules_numbered (cfg : StoreConfig) (rt : Runtime) :
    WriterRules cfg rt Numbered fun _ => True where
  reply _ _ h := h.sameFooting (sendReply_sameFooting _ _ _) rfl
  pend _ h := h.transfer rfl (Nat.le_refl _) rfl rfl rfl
  append flt req h _ := handleAppend_numbered cfg rt flt req h
  fenceAppend flt req h _ := handleAppend_numbered cfg rt flt req h
  appendBatch flt nowUs items h _ := handleAppendBatch_numbered cfg rt flt nowUs items h
  fenceAppendBatch flt nowUs items h _ := handleAppendBatch_numbered cfg rt flt nowUs items h
  beginFence token h :=
    h.sameFooting (beginVisibilityFence_sameFooting token _) (beginVisibilityFence_disk token _)
  commitFence token h :=
    h.sameFooting (commitVisibilityFence_sameFooting token _) (commitVisibilityFence_disk token _)
  cancelFence flt token h :=
    h.sameFooting (cancelVisibilityFence_sameFooting flt token _)
      (cancelVisibilityFence_disk flt token _)
  autoCancel flt h :=
    h.sameFooting (autoCancelFenceOnShutdown_sameFooting flt _)
      (autoCancelFenceOnShutdown_disk flt _)
  footer h :=
    have hdisk := numbered_iff.mp h
    numbered_iff.mpr ⟨hdisk.1, hdisk.2.footer⟩
  sync flt h := by
    unfold syncActiveSegment
    split
    · exact h
    · exact h.transfer rfl (Nat.le_refl _) rfl rfl rfl

end Batpak.Store
