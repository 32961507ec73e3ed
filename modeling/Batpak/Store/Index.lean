/-
Module: Batpak.Store.Index
Purpose: The in-memory index as the writer and the restore paths drive it: point
  lookup, per-lane chain heads, the sequence gate and the idempotency store.
Trusted boundary: none
Main exports: StoreIndex, getById
-/
import Batpak.Store.Visibility
import Batpak.Store.Idemp

namespace Batpak.Store

open Batpak.Util

/-- `inserted` lists every indexed entry, newest first: the point-lookup map and the
entity streams are views of it in which a newer entry shadows an older one with the
same key. `latest` lists the chain heads, newest first, keyed by entity and lane. -/
structure StoreIndex where
  inserted : List IndexEntry
  latest : List IndexEntry
  gate : SequenceGate
  idemp : IdempotencyStore

namespace StoreIndex

def new (retention : IdempotencyRetention) (overflow : OverflowPolicy) : StoreIndex :=
  ⟨[], [], .new, .new retention overflow⟩

/-- Point lookup without the visibility filter. -/
def byId (ix : StoreIndex) (eventId : Nat) : Option IndexEntry :=
  ix.inserted.find? fun e => e.eventId == eventId

/-- Point lookup as readers and the idempotency fallback see it. -/
def getById (ix : StoreIndex) (eventId : Nat) : Option IndexEntry :=
  (ix.byId eventId).filter fun e => ix.gate.isVisible e.globalSequence

/-- Chain head of an entity lane, visible or not. -/
def getLatestCommitted (ix : StoreIndex) (entity : String) (lane : Nat) : Option IndexEntry :=
  ix.latest.find? fun e => e.coord.entity == entity && e.dagLane == lane

/-- The entries the point-lookup map holds: the newest one of every event id. -/
def allEntries (ix : StoreIndex) : List IndexEntry :=
  ix.inserted.filter fun e => ix.byId e.eventId == some e

def globalSequence (ix : StoreIndex) : Nat :=
  ix.gate.allocated

def insertInner (ix : StoreIndex) (entry : IndexEntry) : StoreIndex :=
  { ix with inserted := entry :: ix.inserted, latest := entry :: ix.latest }

/-- Single-event path: index the entry, then advance the allocator by one. -/
def insert (ix : StoreIndex) (entry : IndexEntry) : StoreIndex :=
  let ix := ix.insertInner entry
  { ix with gate := ix.gate.advance }

/-- Batch path: the sequences were reserved when the batch was staged. -/
def insertBatch (ix : StoreIndex) (entries : List IndexEntry) : StoreIndex :=
  entries.foldl insertInner ix

/-- Order in which a restore walks one entity's entries when it installs chain heads. -/
def entityOrder (a b : IndexEntry) : Bool :=
  a.coord.entity < b.coord.entity ||
    (a.coord.entity == b.coord.entity &&
      (a.wallMs < b.wallMs ||
        (a.wallMs == b.wallMs &&
          (a.clock < b.clock || (a.clock == b.clock && a.eventId ≤ b.eventId)))))

/-- Highest visible bound of every lane among the restored entries. -/
def laneVisibleFromEntries (entries : List IndexEntry) : Nat → Nat :=
  entries.foldl
    (fun lanes e => Function.update lanes e.dagLane (max (lanes e.dagLane) (e.globalSequence + 1)))
    fun _ => 0

/-- Next sequence after a restore: past the last entry and at least the hint. -/
def nextSequence (entries : List IndexEntry) (allocatorHint : Nat) : Nat :=
  max ((entries.getLast?.map fun e => e.globalSequence + 1).getD allocatorHint) allocatorHint

/-- Replace the contents from entries sorted by sequence: everything is republished and
every fence and cancelled range is forgotten until the side file is re-applied. -/
def restoreSortedEntries (ix : StoreIndex) (entries : List IndexEntry) (allocatorHint : Nat) :
    StoreIndex :=
  let next := nextSequence entries allocatorHint
  { ix with
    inserted := entries.reverse
    latest := (entries.insertionSort fun a b => entityOrder a b).reverse
    gate := { SequenceGate.new with
      allocated := next
      visible := next
      laneVisible := laneVisibleFromEntries entries } }

/-- Single events of the active fence's hull, tagged with their lane. -/
def fenceLanePoints (ix : StoreIndex) : List (Nat × Range) :=
  match ix.gate.activeFenceRange with
  | none => []
  | some (start, stop) =>
      (ix.allEntries.filter fun e => start ≤ e.globalSequence && e.globalSequence < stop).map
        fun e => (e.dagLane, (e.globalSequence, e.globalSequence + 1))

def cancelVisibilityFence (ix : StoreIndex) (token : Nat) : Except StoreError StoreIndex :=
  match ix.gate.cancelFence token ix.fenceLanePoints with
  | .ok gate => .ok { ix with gate := gate }
  | .error e => .error e

/-- Adopt a freshly rebuilt index. The gate is cleared first, so an active fence, its
staged hull and the token counter do not survive; the idempotency store does. -/
def replaceContentsFromFresh (ix fresh : StoreIndex) : StoreIndex where
  inserted := fresh.inserted
  latest := fresh.latest
  gate := ({ SequenceGate.new with
      allocated := fresh.gate.allocated
      visible := fresh.gate.visible
      laneVisible := fresh.gate.laneVisible } : SequenceGate).restoreCancelledRanges
    fresh.gate.cancelledRangesSnapshot
  idemp := ix.idemp

def restoreCancelledVisibilityRanges (ix : StoreIndex) (ranges : CancelledVisibilityRanges) :
    StoreIndex :=
  { ix with gate := ix.gate.restoreCancelledRanges ranges }

/-! ### Effects of an insertion -/

@[simp] theorem insert_inserted (ix : StoreIndex) (e : IndexEntry) :
    (ix.insert e).inserted = e :: ix.inserted := rfl

@[simp] theorem insert_latest (ix : StoreIndex) (e : IndexEntry) :
    (ix.insert e).latest = e :: ix.latest := rfl

@[simp] theorem insertBatch_inserted (ix : StoreIndex) (entries : List IndexEntry) :
    (ix.insertBatch entries).inserted = entries.reverse ++ ix.inserted := by
  induction entries generalizing ix with
  | nil => rfl
  | cons e rest ih =>
      change ((ix.insertInner e).insertBatch rest).inserted = _
      rw [ih]
      simp [insertInner]

@[simp] theorem insertBatch_latest (ix : StoreIndex) (entries : List IndexEntry) :
    (ix.insertBatch entries).latest = entries.reverse ++ ix.latest := by
  induction entries generalizing ix with
  | nil => rfl
  | cons e rest ih =>
      change ((ix.insertInner e).insertBatch rest).latest = _
      rw [ih]
      simp [insertInner]

@[simp] theorem insertBatch_gate (ix : StoreIndex) (entries : List IndexEntry) :
    (ix.insertBatch entries).gate = ix.gate := by
  induction entries generalizing ix with
  | nil => rfl
  | cons e rest ih => exact ih (ix.insertInner e)

/-- The chain head of a lane after an insertion: the inserted entry on its own lane,
unchanged everywhere else. -/
theorem getLatestCommitted_insertInner (ix : StoreIndex) (e : IndexEntry) (entity : String)
    (lane : Nat) :
    (ix.insertInner e).getLatestCommitted entity lane =
      if e.coord.entity = entity ∧ e.dagLane = lane then some e
      else ix.getLatestCommitted entity lane := by
  unfold getLatestCommitted insertInner
  rw [List.find?_cons]
  by_cases h : e.coord.entity = entity ∧ e.dagLane = lane
  · simp [h]
  · rw [if_neg h]
    have : (e.coord.entity == entity && e.dagLane == lane) = false := by
      rw [Bool.and_eq_false_iff, beq_eq_false_iff_ne, beq_eq_false_iff_ne]
      by_contra hc
      rw [not_or, not_not, not_not] at hc
      exact h hc
    rw [this]

end StoreIndex

end Batpak.Store
