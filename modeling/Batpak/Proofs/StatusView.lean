/-
Module: Batpak.Proofs.StatusView
Purpose: Where incremental apply of the status view and its full replay agree.
Trusted boundary: none
Main exports: incremental_apply_matches_full_replay_iff
-/
import Batpak.Syncbat.OperationStatus

namespace Batpak.Syncbat

open Batpak.Util

namespace OperationStatusView

variable {fromBytes : Bytes → Option OperationStatusFactV1} {view : OperationStatusView}
  {events rest : List ProjectionEvent} {event : ProjectionEvent} {fact : OperationStatusFactV1}

/-! ### Incremental apply -/

theorem fromEvents_eq_some_iff :
    fromEvents fromBytes events = some view ↔
      events.foldlM (replayEvent fromBytes) none = some (some view) := by
  simp [fromEvents, Option.join_eq_some_iff]

theorem replayEvent_undecodable {view : Option OperationStatusView}
    (h : decodeFact fromBytes event = none) : replayEvent fromBytes view event = none := by
  simp [replayEvent, h]

theorem replayEvent_decodes (h : decodeFact fromBytes event = some fact) :
    replayEvent fromBytes (some view) event = some (some (view.applyFactTo fact)) := by
  simp [replayEvent, h]

theorem replay_of_decodes (h : ∀ event ∈ rest, (decodeFact fromBytes event).isSome) :
    rest.foldlM (replayEvent fromBytes) (some view) =
      some (some (rest.foldl (applyEvent fromBytes) view)) := by
  induction rest generalizing view with
  | nil => rfl
  | cons event rest ih =>
      obtain ⟨fact, hfact⟩ := Option.isSome_iff_exists.mp (h event List.mem_cons_self)
      have hstep : applyEvent fromBytes view event = view.applyFactTo fact := by
        simp [applyEvent, hfact]
      rw [List.foldlM_cons, replayEvent_decodes hfact, List.foldl_cons, hstep]
      exact ih fun event hmem => h event (List.mem_cons_of_mem _ hmem)

/-- Replay stops without a view at an undecodable event, wherever it stands. -/
theorem replay_of_undecodable {view : Option OperationStatusView} (hmem : event ∈ rest)
    (h : decodeFact fromBytes event = none) :
    rest.foldlM (replayEvent fromBytes) view = none := by
  obtain ⟨before, after, rfl⟩ := List.append_of_mem hmem
  rw [List.foldlM_append]
  cases before.foldlM (replayEvent fromBytes) view with
  | none => rfl
  | some view => simp [replayEvent_undecodable h]

/-- Incremental apply skips an undecodable event and full replay gives up at it, so they agree
exactly on the continuations that decode. -/
theorem incremental_apply_matches_full_replay_iff {first : List ProjectionEvent}
    (cached : fromEvents fromBytes first = some view) :
    fromEvents fromBytes (first ++ rest) = some (rest.foldl (applyEvent fromBytes) view) ↔
      ∀ event ∈ rest, (decodeFact fromBytes event).isSome := by
  rw [fromEvents_eq_some_iff] at cached ⊢
  rw [List.foldlM_append, cached]
  constructor
  · intro h event hmem
    by_contra hnone
    rw [Option.not_isSome_iff_eq_none] at hnone
    have hstop : rest.foldlM (replayEvent fromBytes) (some view) = none :=
      replay_of_undecodable hmem hnone
    exact absurd (hstop.symm.trans h) nofun
  · exact replay_of_decodes

/-- The payload of a started fact. -/
def startedPayload : Bytes :=
  [0x84] ++ [0xAE] ++ utf8 "schema_version" ++ [0x01, 0xA9] ++ utf8 "operation" ++ [0xA2] ++
    utf8 "op" ++ [0xA9] ++ utf8 "lifecycle" ++ [0xA7] ++ utf8 "started" ++ [0xAC] ++
    utf8 "receipt_kind" ++ [0xA1] ++ utf8 "r"

def startedFact : OperationStatusFactV1 :=
  ⟨1, "op", .started, some "r", none, none, none, none⟩

/-- A decoder that knows the bytes of one fact. -/
def startedReader (bytes : Bytes) : Option OperationStatusFactV1 :=
  if bytes = startedPayload then some startedFact else none

def startedEvent : ProjectionEvent :=
  ⟨syncbatOperationStatusEventKind, startedPayload⟩

theorem second_start_replays :
    fromEvents startedReader ([startedEvent] ++ [startedEvent]) =
      some ([startedEvent].foldl (applyEvent startedReader) (applyFact none startedFact)) := by
  have hcached : fromEvents startedReader [startedEvent] = some (applyFact none startedFact) := by
    decide +kernel
  exact (incremental_apply_matches_full_replay_iff hcached).mpr (by decide +kernel)

/-- An empty payload behind a started fact: replay gives up, incremental apply goes on. -/
theorem skipped_payload_splits_replay :
    ¬∀ (first rest : List ProjectionEvent) (view : OperationStatusView),
      fromEvents startedReader first = some view →
        fromEvents startedReader (first ++ rest) =
          some (rest.foldl (applyEvent startedReader) view) := by
  intro h
  have heq := h [startedEvent] [⟨syncbatOperationStatusEventKind, []⟩, startedEvent]
    (applyFact none startedFact) (by decide +kernel)
  have hnone : fromEvents startedReader ([startedEvent] ++
      [⟨syncbatOperationStatusEventKind, []⟩, startedEvent]) = none := by
    decide +kernel
  rw [hnone] at heq
  cases heq

end OperationStatusView

end Batpak.Syncbat
