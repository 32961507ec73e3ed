/-
Module: Batpak.Store.Open
Purpose: The tail of an open, once the index has been recovered: the writer, the open event and
  the first watermarks.
Trusted boundary: the wall clock and the generated event id (arguments)
Main exports: openCandidate, openCompletedRequest
-/
import Batpak.Store.WriterLoop

namespace Batpak.Store

open Batpak.Util

def IndexEntry.point (e : IndexEntry) : HlcPoint :=
  ⟨e.wallMs, e.globalSequence⟩

/-- Highest point among the entries, by sequence. -/
def highestHlc (entries : List IndexEntry) : HlcPoint :=
  entries.foldl (fun best e => best.maxBySequence e.point) .origin

def highestHlcByLane (entries : List IndexEntry) (lane : Nat) : HlcPoint :=
  highestHlc (entries.filter fun e => e.dagLane = lane)

/-- Entries readers can see, each judged on its own lane. -/
def StoreIndex.visibleEntries (ix : StoreIndex) : List IndexEntry :=
  ix.allEntries.filter fun e => ix.gate.isVisibleOnLane e.globalSequence e.dagLane

/-- Points of the close events must not regress in sequence order. -/
def latestClose : HlcPoint → List HlcPoint → Except StoreError HlcPoint
  | latest, [] => .ok latest
  | latest, p :: rest =>
      if p.lt latest then .error (.invariantViolation "close HLC regressed in log order")
      else latestClose p rest

def lastCloseHlc (ix : StoreIndex) : Except StoreError HlcPoint :=
  let closes := ix.allEntries.filter fun e => e.kind = .systemCloseCompleted
  latestClose .origin ((closes.map IndexEntry.point).insertionSort fun p q =>
    decide (p.globalSequence ≤ q.globalSequence))

/-- Where the open event is placed: at or past everything recovered, and at the wall clock
when that reads sensibly. -/
def openCandidate (maxRecovered lastClose : HlcPoint) (nowUs : Int) : HlcPoint :=
  let nowMs := match wallMsFromTimestampUs nowUs with
    | .ok ms => ms
    | .error _ => 0
  (maxRecovered.max lastClose).max ⟨nowMs, maxRecovered.globalSequence⟩

def validateBootstrapHlc (openHlc maxRecovered lastClose : HlcPoint) : Except StoreError Unit :=
  ensure (!openHlc.lt maxRecovered && !openHlc.lt lastClose)
    (.invariantViolation "bootstrap HLC out of order")

/-- The lifecycle event an open appends: keyed by its own generated id. -/
def openCompletedRequest (eventId : Nat) (report : Bytes) (candidate : HlcPoint) :
    AppendRequest where
  coord := ⟨"batpak:store", "batpak:lifecycle"⟩
  eventId := eventId
  kind := .systemOpenCompleted
  payload := report
  timestampUs := candidate.wallMs * 1000
  correlationId := eventId
  causationId := none
  expectedSequence := none
  idempotencyKey := some eventId
  dagLane := 0
  dagDepth := 0
  dagBranchRoot := false
  flags := 0
  payloadVersion := 0
  extensions := []
  kind_appendable := by decide
  keyed_id := by simp

/-- What an open draws from its environment. -/
structure OpenInputs where
  eventId : Nat
  report : Bytes
  nowUs : Int
  faults : Faults

/-- Append the open event, sync it, and restart the watermarks from it. -/
def completeOpen (cfg : StoreConfig) (rt : Runtime) (inputs : OpenInputs) : WriterM Unit := do
  let s ← get
  let maxRecovered := highestHlc s.index.allEntries
  let lastClose ← liftExcept (lastCloseHlc s.index)
  let candidate := openCandidate maxRecovered lastClose inputs.nowUs
  liftExcept (validateBootstrapHlc candidate maxRecovered lastClose)
  let receipt ← handleAppend cfg rt inputs.faults
    (openCompletedRequest inputs.eventId inputs.report candidate) false
  let s ← get
  let entry ← liftExcept (match s.index.getById receipt.eventId with
    | some entry => .ok entry
    | none => .error (.invariantViolation "open receipt not indexed"))
  let lastClose ← liftExcept (lastCloseHlc s.index)
  liftExcept (validateBootstrapHlc entry.point candidate lastClose)
  syncActiveSegment inputs.faults
  modify fun s => { s with
    watermark := s.watermark.resetToBootstrapLanes entry.point entry.point
      (highestHlcByLane s.index.allEntries) (highestHlcByLane s.index.visibleEntries) }

/-! ### Evaluating the model -/

/-- A store opened on an empty directory. -/
def freshStore (cfg : StoreConfig) (rt : Runtime) : WriterCore :=
  finalState (completeOpen cfg rt ⟨1, [], 0, .none⟩
    (.spawn cfg (.new .unbounded .warn) [] none 1))

/-- An unkeyed append of `size` zero bytes. -/
def plainRequest (entity : String) (eventId size : Nat) : AppendRequest where
  coord := ⟨entity, "ledger"⟩
  eventId := eventId
  kind := .data
  payload := List.replicate size 0
  timestampUs := 0
  correlationId := eventId
  causationId := none
  expectedSequence := none
  idempotencyKey := none
  dagLane := 0
  dagDepth := 0
  dagBranchRoot := false
  flags := 0
  payloadVersion := 0
  extensions := []
  kind_appendable := by decide
  keyed_id := by simp

/-- An item without key or causation, of `size` zero bytes. -/
def plainItem (entity : String) (eventId size : Nat) : BatchAppendItem where
  coord := ⟨entity, "ledger"⟩
  kind := .data
  payload := List.replicate size 0
  generatedId := eventId
  correlationId := none
  causationId := none
  causation := .none
  expectedSequence := none
  idempotencyKey := none
  dagLane := 0
  dagDepth := 0
  dagBranchRoot := false
  flags := 0
  extensions := []
  kind_appendable := by decide

end Batpak.Store
