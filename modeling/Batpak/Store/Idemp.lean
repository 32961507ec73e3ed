/-
Module: Batpak.Store.Idemp
Purpose: The durable idempotency store: key to receipt-reconstruction tuple, window
  and cap retention, admission of new keys, and the sidecar file contents.
Trusted boundary: none
Main exports: IdempEntry, IdempotencyStore
-/
import Batpak.Store.Types

namespace Batpak.Store

inductive IdempotencyRetention where
  | unbounded
  | window (keepSequences : Nat)
  | hybrid (keepSequences maxKeys : Nat)
  deriving Repr, Inhabited, DecidableEq

namespace IdempotencyRetention

def keepSequences : IdempotencyRetention → Option Nat
  | .unbounded => none
  | .window keep => some keep
  | .hybrid keep _ => some keep

def maxKeys : IdempotencyRetention → Option Nat
  | .unbounded => none
  | .window _ => none
  | .hybrid _ cap => some cap

end IdempotencyRetention

inductive OverflowPolicy where
  | warn
  | failClosed
  | backpressure
  deriving Repr, Inhabited, DecidableEq

/-- The tuple needed to rebuild the original receipt once the event itself is gone. -/
structure IdempEntry where
  key : Nat
  eventId : Nat
  globalSequence : Nat
  diskPos : DiskPos
  contentHash : Digest
  prevHash : Digest
  coord : Coordinate
  kind : EventKind
  recordedGlobalSequence : Nat
  eventEvicted : Bool
  receiptExtensions : Extensions
  deriving Repr, Inhabited, DecidableEq

def IdempEntry.fromIndexEntry (entry : IndexEntry) (recorded : Nat) : IdempEntry where
  key := entry.eventId
  eventId := entry.eventId
  globalSequence := entry.globalSequence
  diskPos := entry.diskPos
  contentHash := entry.hashChain.eventHash
  prevHash := entry.hashChain.prevHash
  coord := entry.coord
  kind := entry.kind
  recordedGlobalSequence := recorded
  eventEvicted := false
  receiptExtensions := entry.receiptExtensions

/-- The map holds at most one entry per key. -/
structure IdempotencyStore where
  map : List IdempEntry
  retention : IdempotencyRetention
  overflow : OverflowPolicy
  deriving Repr, Inhabited, DecidableEq

namespace IdempotencyStore

def new (retention : IdempotencyRetention) (overflow : OverflowPolicy) : IdempotencyStore :=
  ⟨[], retention, overflow⟩

def get (s : IdempotencyStore) (key : Nat) : Option IdempEntry :=
  s.map.find? fun e => e.key == key

def containsKey (s : IdempotencyStore) (key : Nat) : Bool :=
  (s.get key).isSome

/-- Insert, replacing an entry with the same key. -/
def record (s : IdempotencyStore) (entry : IdempEntry) : IdempotencyStore :=
  { s with map := entry :: s.map.filter fun e => e.key != entry.key }

/-- First recorded sequence still inside the window. -/
def windowFloor (retention : IdempotencyRetention) (frontier : Nat) : Nat :=
  match retention.keepSequences with
  | none => 0
  | some keep => frontier - keep

/-- Age out everything below the window floor. The cap step that follows in the source
only trims keys below that same floor, none of which is left. -/
def evict (s : IdempotencyStore) (frontier : Nat) : IdempotencyStore :=
  match s.retention.keepSequences with
  | none => s
  | some keep => { s with map := s.map.filter fun e => frontier - keep ≤ e.recordedGlobalSequence }

/-- What one eviction pass reports. -/
structure EvictionReport where
  agedOut : Nat
  capTrimmedOutOfWindow : Nat
  withinWindowExceedsCap : Bool
  remaining : Nat
  deriving Repr, DecidableEq

def removeKeys (s : IdempotencyStore) (keys : List Nat) : IdempotencyStore :=
  { s with map := s.map.filter fun e => e.key ∉ keys }

/-- The pass with both its steps: keys below the window floor age out, then the cap trims
keys that are still below it. -/
def evictPass (s : IdempotencyStore) (frontier : Nat) : EvictionReport × IdempotencyStore :=
  match s.retention.keepSequences with
  | none => (⟨0, 0, false, s.map.length⟩, s)
  | some keep =>
      let floor := frontier - keep
      let aged := (s.map.filter fun e => e.recordedGlobalSequence < floor).map IdempEntry.key
      let s := s.removeKeys aged
      match s.retention.maxKeys with
      | none => (⟨aged.length, 0, false, s.map.length⟩, s)
      | some maxKeys =>
          if s.map.length ≤ maxKeys then (⟨aged.length, 0, false, s.map.length⟩, s)
          else if maxKeys ≤ (s.map.filter fun e => floor ≤ e.recordedGlobalSequence).length then
            (⟨aged.length, 0, true, s.map.length⟩, s)
          else
            let surplus := ((s.map.filter fun e => e.recordedGlobalSequence < floor).map
              IdempEntry.key).take (s.map.length - maxKeys)
            let s := s.removeKeys surplus
            (⟨aged.length, surplus.length, false, s.map.length⟩, s)

/-- Admission of `uniqueNew` fresh keys against the soft cap. -/
def admitUniqueNewCount (s : IdempotencyStore) (uniqueNew frontier : Nat) :
    Except StoreError Unit × IdempotencyStore :=
  match s.retention.maxKeys with
  | none => (.ok (), s)
  | some maxKeys =>
      if uniqueNew = 0 then (.ok (), s)
      else if s.map.length + uniqueNew ≤ maxKeys then (.ok (), s)
      else
        let s := s.evict frontier
        if s.map.length + uniqueNew ≤ maxKeys then (.ok (), s)
        else
          match s.overflow with
          | .warn => (.ok (), s)
          | .failClosed => (.error (.idempotencyOverflowFailClosed s.map.length maxKeys), s)
          | .backpressure => (.error (.idempotencyOverflowFailClosed s.map.length maxKeys), s)

def admitNewKey (s : IdempotencyStore) (key frontier : Nat) :
    Except StoreError Unit × IdempotencyStore :=
  if s.containsKey key then (.ok (), s) else s.admitUniqueNewCount 1 frontier

/-- Count the keys that are not durable yet; a repeated new key is an error. -/
def countUniqueNew (s : IdempotencyStore) : List Nat → List Nat → Except StoreError Nat
  | [], seen => .ok seen.length
  | key :: rest, seen =>
      if s.containsKey key then s.countUniqueNew rest seen
      else if key ∈ seen then
        .error (.idempotencyPartialBatch "duplicate idempotency key in batch")
      else s.countUniqueNew rest (key :: seen)

def admitNewKeys (s : IdempotencyStore) (keys : List Nat) (frontier : Nat) :
    Except StoreError Unit × IdempotencyStore :=
  match s.countUniqueNew keys [] with
  | .error e => (.error e, s)
  | .ok uniqueNew => s.admitUniqueNewCount uniqueNew frontier

/-- Flag the entries whose event is no longer in the live index. -/
def markEvicted (s : IdempotencyStore) (isLive : Nat → Bool) : IdempotencyStore :=
  { s with
    map := s.map.map fun e =>
      if !e.eventEvicted && !isLive e.eventId then { e with eventEvicted := true } else e }

/-- Rebuild the map from the sidecar's entries, later entries winning. -/
def restore (s : IdempotencyStore) (entries : List IdempEntry) : IdempotencyStore :=
  entries.foldl record { s with map := [] }

end IdempotencyStore

end Batpak.Store
