/-
Module: Batpak.Store.HiddenRanges
Purpose: The side file of the cancelled visibility ranges: what is normalised before it is
  written, the file layout, and the ladder of refusals of its reader.
Trusted boundary: the checksum and the MessagePack codec are parameters
Main exports: HiddenRanges, normalizeRanges
-/
import Batpak.Store.SegmentFile

namespace Batpak.Store

open Batpak.Util

/-- The ranges of the store and of the lanes that have any, in lane order. -/
structure HiddenRanges where
  global : List Range
  lanes : List (Nat × List Range)
  deriving Repr, DecidableEq

/-- The map has each lane once, and its numbers are of their types. -/
structure HiddenRanges.Typed (ranges : HiddenRanges) : Prop where
  ascending : ranges.lanes.Pairwise fun a b => a.1 < b.1
  lanes : ∀ e ∈ ranges.lanes, e.1 < 2 ^ 32
  global : ∀ r ∈ ranges.global, r.1 < 2 ^ 64 ∧ r.2 < 2 ^ 64
  laneRanges : ∀ e ∈ ranges.lanes, ∀ r ∈ e.2, r.1 < 2 ^ 64 ∧ r.2 < 2 ^ 64

def laneRanges (lanes : List (Nat × List Range)) (lane : Nat) : List Range :=
  (lanes.lookup lane).getD []

/-- What the gate is restored from. -/
def HiddenRanges.cancelled (ranges : HiddenRanges) : CancelledVisibilityRanges :=
  ⟨ranges.global, laneRanges ranges.lanes⟩

inductive HiddenRangesCorruption where
  | readFailed (e : String)
  | tooShort (actual required : Nat)
  | badMagic
  | unsupportedVersion (observed expected : Nat)
  | crcMismatch (stored computed : UInt32)
  | decodeFailed (e : String)
  | malformedEntries (start stop : Nat)
  deriving Repr, DecidableEq

inductive HiddenRangesError where
  | rangeMalformed (start stop : Nat)
  | serialization (e : String)
  | hiddenRangesCorrupt (kind : HiddenRangesCorruption)
  | hiddenRangesFutureVersion (found supported : Nat)
  deriving Repr, DecidableEq

/-! ### Normalising -/

/-- An empty range is refused, the first one by name. -/
def normalizeRanges (ranges : List Range) : Except HiddenRangesError (List Range) :=
  match ranges.find? fun r => r.2 ≤ r.1 with
  | some r => .error (.rangeMalformed r.1 r.2)
  | none => .ok (coalesce (ranges.insertionSort fun a b => a.1 ≤ b.1))

/-- Lanes without a range are left out. -/
def normalizeLaneRanges :
    List (Nat × List Range) → Except HiddenRangesError (List (Nat × List Range))
  | [] => .ok []
  | (lane, ranges) :: rest => do
      let ranges ← normalizeRanges ranges
      let rest ← normalizeLaneRanges rest
      return if ranges.isEmpty then rest else (lane, ranges) :: rest

/-! ### The file -/

/-- `FBATVR` -/
def visibilityRangesMagic : Bytes := [0x46, 0x42, 0x41, 0x54, 0x56, 0x52]

def visibilityRangesVersion : UInt16 := 2

def rangeEntrySerde : Serde Range where
  ser r := structOf [("start", (Serde.uint 64).ser r.1), ("end", (Serde.uint 64).ser r.2)]
  de m := do
    let fields ← structFields m
    let start ← required (.uint 64) "start" fields
    let stop ← required (.uint 64) "end" fields
    return (start, stop)
  Fits r := r.1 < 2 ^ 64 ∧ r.2 < 2 ^ 64
  de_ser := by
    intro r ⟨hstart, hstop⟩
    apply bind_of_eq_some (structFields_structOf (by simp))
    apply bind_of_eq_some (required_ser "start" (by simp [fieldNamed]) hstart)
    apply bind_of_eq_some (required_ser "end" (by simp [fieldNamed]) hstop)
    rfl

def laneRangeEntrySerde : Serde (Nat × List Range) where
  ser e := structOf [
    ("lane", (Serde.uint 32).ser e.1), ("ranges", (Serde.list rangeEntrySerde).ser e.2)]
  de m := do
    let fields ← structFields m
    let lane ← required (.uint 32) "lane" fields
    let ranges ← required (.list rangeEntrySerde) "ranges" fields
    return (lane, ranges)
  Fits e := e.1 < 2 ^ 32 ∧ (Serde.list rangeEntrySerde).Fits e.2
  de_ser := by
    intro e ⟨hlane, hranges⟩
    apply bind_of_eq_some (structFields_structOf (by simp))
    apply bind_of_eq_some (required_ser "lane" (by simp [fieldNamed]) hlane)
    apply bind_of_eq_some (required_ser "ranges" (by simp [fieldNamed]) hranges)
    rfl

/-- The first version has no lane ranges. -/
def hiddenRangesSerde : Serde HiddenRanges where
  ser r := structOf [
    ("ranges", (Serde.list rangeEntrySerde).ser r.global),
    ("lane_ranges", (Serde.list laneRangeEntrySerde).ser r.lanes)]
  de m := do
    let fields ← structFields m
    let global ← required (.list rangeEntrySerde) "ranges" fields
    let lanes ← defaulted (.list laneRangeEntrySerde) [] "lane_ranges" fields
    return { global, lanes }
  Fits r := (Serde.list rangeEntrySerde).Fits r.global ∧
    (Serde.list laneRangeEntrySerde).Fits r.lanes
  de_ser := by
    intro r ⟨hglobal, hlanes⟩
    apply bind_of_eq_some (structFields_structOf (by simp))
    apply bind_of_eq_some (required_ser "ranges" (by simp [fieldNamed]) hglobal)
    apply bind_of_eq_some (defaulted_ser "lane_ranges" (by simp [fieldNamed]) hlanes)
    rfl

def visibilityRangesFile (crc : Crc32) (body : Bytes) : Bytes :=
  visibilityRangesMagic ++ (putLe visibilityRangesVersion ++ (putLe (crc.hash body) ++ body))

/-- The new file. Without any range there is none. -/
def writeCancelledRanges (r : SegmentReader) (ranges : HiddenRanges) :
    Except HiddenRangesError (Option Bytes) := do
  let global ← normalizeRanges ranges.global
  let lanes ← normalizeLaneRanges ranges.lanes
  if global.isEmpty && lanes.isEmpty then return none
  let body ← (r.codec.write (hiddenRangesSerde.ser ⟨global, lanes⟩)).mapError .serialization
  return some (visibilityRangesFile r.crc body)

/-- What is wrong with an entry counts as corruption of the file. -/
def malformed : HiddenRangesError → HiddenRangesError
  | .rangeMalformed start stop => .hiddenRangesCorrupt (.malformedEntries start stop)
  | e => e

/-- The file is not there, cannot be read, or has these bytes. A lane given twice counts with
its last entry. -/
def loadCancelledRanges (r : SegmentReader) :
    Except String (Option Bytes) → Except HiddenRangesError (Option HiddenRanges)
  | .error e => .error (.hiddenRangesCorrupt (.readFailed e))
  | .ok none => .ok none
  | .ok (some raw) =>
      if raw.length < 12 then .error (.hiddenRangesCorrupt (.tooShort raw.length 12))
      else if raw.take 6 ≠ visibilityRangesMagic then .error (.hiddenRangesCorrupt .badMagic)
      else
        let version := (getLe UInt16 (raw.drop 6)).1.toNat
        let storedCrc := (getLe UInt32 (raw.drop 8)).1
        let body := raw.drop 12
        if visibilityRangesVersion.toNat < version then
          .error (.hiddenRangesFutureVersion version visibilityRangesVersion.toNat)
        else if version < 1 then
          .error (.hiddenRangesCorrupt (.unsupportedVersion version visibilityRangesVersion.toNat))
        else if storedCrc ≠ r.crc.hash body then
          .error (.hiddenRangesCorrupt (.crcMismatch storedCrc (r.crc.hash body)))
        else
          match r.fromBytes hiddenRangesSerde body with
          | .error e => .error (.hiddenRangesCorrupt (.decodeFailed e))
          | .ok data => do
              let rawLanes := data.lanes.foldl (fun acc e => Serde.insertKey e.1 e.2 acc) []
              let global ← (normalizeRanges data.global).mapError malformed
              let lanes ← (normalizeLaneRanges rawLanes).mapError malformed
              return some { global, lanes }

end Batpak.Store
