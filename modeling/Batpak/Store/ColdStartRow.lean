/-
Module: Batpak.Store.ColdStartRow
Purpose: The row shared by the readers of cold-start files: how a stored kind is read back,
  which unknown kinds are replaced and counted, and how a row resolves its strings.
Trusted boundary: none
Main exports: ReservedKindFallbackStats, rawToKindCounted
-/
import Batpak.Store.Coordinate
import Batpak.Store.SidxFooter

namespace Batpak.Store

open Batpak.Util

/-! ### Kinds -/

/-- How many stored kinds of the reserved categories were not recognised, by raw value. -/
structure ReservedKindFallbackStats where
  system : Nat
  effect : Nat
  systemHistogram : List (Nat × Nat)
  effectHistogram : List (Nat × Nat)
  deriving Repr, Inhabited, DecidableEq

/-- `*entry(raw).or_insert(0) += count` -/
def addCount (raw count : Nat) (histogram : List (Nat × Nat)) : List (Nat × Nat) :=
  Serde.insertKey raw ((histogram.lookup raw).getD 0 + count) histogram

namespace ReservedKindFallbackStats

def none : ReservedKindFallbackStats :=
  ⟨0, 0, [], []⟩

def recordSystem (counts : ReservedKindFallbackStats) (raw : Nat) : ReservedKindFallbackStats :=
  { counts with
    system := counts.system + 1
    systemHistogram := addCount raw 1 counts.systemHistogram }

def recordEffect (counts : ReservedKindFallbackStats) (raw : Nat) : ReservedKindFallbackStats :=
  { counts with
    effect := counts.effect + 1
    effectHistogram := addCount raw 1 counts.effectHistogram }

def mergeFrom (counts other : ReservedKindFallbackStats) : ReservedKindFallbackStats where
  system := counts.system + other.system
  effect := counts.effect + other.effect
  systemHistogram :=
    other.systemHistogram.foldl (fun acc e => addCount e.1 e.2 acc) counts.systemHistogram
  effectHistogram :=
    other.effectHistogram.foldl (fun acc e => addCount e.1 e.2 acc) counts.effectHistogram

end ReservedKindFallbackStats

/-- The system kinds the library defines, data and tombstone included. -/
def knownSystemKinds : List Nat :=
  [0x0001, 0x0002, 0x0003, 0x0004, 0x0005, 0x0006, 0x0007, 0x0008, 0x0009, 0x000F, 0x0FFE]

def knownEffectKinds : List Nat :=
  [0xD001, 0xD002, 0xD004, 0xD005, 0xD006, 0xD007]

/-- A stored kind. An unrecognised one of a reserved category becomes the data kind or the
error effect and is counted. -/
def rawToKindCounted (raw : Nat) (counts : ReservedKindFallbackStats) :
    EventKind × ReservedKindFallbackStats :=
  if raw / 0x1000 = 0x0 then
    if raw ∈ knownSystemKinds then (⟨raw⟩, counts)
    else if raw = 0x0000 then (.data, counts)
    else (.data, counts.recordSystem raw)
  else if raw / 0x1000 = 0xD then
    if raw ∈ knownEffectKinds then (⟨raw⟩, counts)
    else (⟨0xD001⟩, counts.recordEffect raw)
  else (⟨raw⟩, counts)

def rawToKind (raw : Nat) : EventKind :=
  (rawToKindCounted raw .none).1

/-! ### Rows -/

inductive ColdStartSource where
  | checkpoint
  | mmapIndex
  | sidx
  deriving Repr, DecidableEq

def ColdStartSource.label : ColdStartSource → String
  | .checkpoint => "checkpoint"
  | .mmapIndex => "mmap index"
  | .sidx => "SIDX"

structure ColdStartIndexRow where
  source : ColdStartSource
  eventId : Nat
  correlationId : Nat
  causationId : Option Nat
  entityId : Nat
  scopeId : Nat
  kind : EventKind
  wallMs : Nat
  clock : Nat
  dagLane : Nat
  dagDepth : Nat
  hashChain : HashChain
  diskPos : DiskPos
  globalSequence : Nat
  deriving Repr, DecidableEq

namespace ColdStartIndexRow

def resolvePart (row : ColdStartIndexRow) (internerStrings : List String) (id : Nat)
    (field : String) : Except StoreError String :=
  match internerStrings[id]? with
  | some s => .ok s
  | none => .error (.serialization (row.source.label ++ " " ++ field ++ " is out of interner range"))

def resolveStrings (row : ColdStartIndexRow) (internerStrings : List String) :
    Except StoreError Coordinate := do
  let entity ← row.resolvePart internerStrings row.entityId "entity_id"
  let scope ← row.resolvePart internerStrings row.scopeId "scope_id"
  return ⟨entity, scope⟩

end ColdStartIndexRow

/-- A stored causation id of zero says that there is none. -/
def causationOfWire (id : Nat) : Option Nat :=
  if id = 0 then none else some id

def Sidx.SidxEntry.toColdStartRow (e : Sidx.SidxEntry) (segmentId : Nat) : ColdStartIndexRow where
  source := .sidx
  eventId := e.eventId.toNat
  correlationId := e.correlationId.toNat
  causationId := causationOfWire e.causationId.toNat
  entityId := e.entityIdx.toNat
  scopeId := e.scopeIdx.toNat
  kind := rawToKind e.kind.toNat
  wallMs := e.wallMs.toNat
  clock := e.clock.toNat
  dagLane := e.dagLane.toNat
  dagDepth := e.dagDepth.toNat
  hashChain := ⟨beValue e.prevHash.toList, beValue e.eventHash.toList⟩
  diskPos := ⟨segmentId, e.frameOffset.toNat, e.frameLength.toNat⟩
  globalSequence := e.globalSequence.toNat

end Batpak.Store
