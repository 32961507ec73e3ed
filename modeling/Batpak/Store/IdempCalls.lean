/-
Module: Batpak.Store.IdempCalls
Purpose: The durable idempotency store as its callers drive it: admissions, the records that
  follow them and eviction passes, each at the frontier of the moment.
Trusted boundary: none
Main exports: IdempCall, IdempRun
-/
import Batpak.Store.Idemp
import Batpak.Util.Run

namespace Batpak.Store

open Batpak.Util

inductive IdempCall where
  | admitNewKey (key frontier : Nat)
  | admitNewKeys (keys : List Nat) (frontier : Nat)
  | record (entry : IdempEntry)
  | evict (frontier : Nat)

/-- The store, the frontier of the last call that named one, and the keys that the last call
admitted. -/
structure IdempRun where
  store : IdempotencyStore
  frontier : Nat
  admitted : List Nat
  deriving Repr, DecidableEq

namespace IdempRun

def start (retention : IdempotencyRetention) (overflow : OverflowPolicy) : IdempRun :=
  ⟨.new retention overflow, 0, []⟩

/-- A refused admission admits nothing. -/
def afterAdmission (keys : List Nat) (frontier : Nat) :
    Except StoreError Unit × IdempotencyStore → IdempRun
  | (.ok _, s) => ⟨s, frontier, keys⟩
  | (.error _, s) => ⟨s, frontier, []⟩

def step (r : IdempRun) : IdempCall → IdempRun
  | .admitNewKey key frontier => afterAdmission [key] frontier (r.store.admitNewKey key frontier)
  | .admitNewKeys keys frontier => afterAdmission keys frontier (r.store.admitNewKeys keys frontier)
  | .record entry => { r with store := r.store.record entry }
  | .evict frontier => ⟨(r.store.evictPass frontier).2, frontier, []⟩

/-- The frontier does not move back. -/
def Forward (r : IdempRun) : IdempCall → Prop
  | .admitNewKey _ frontier => r.frontier ≤ frontier
  | .admitNewKeys _ frontier => r.frontier ≤ frontier
  | .record _ => True
  | .evict frontier => r.frontier ≤ frontier

instance (r : IdempRun) : (call : IdempCall) → Decidable (r.Forward call)
  | .admitNewKey _ frontier => inferInstanceAs (Decidable (r.frontier ≤ frontier))
  | .admitNewKeys _ frontier => inferInstanceAs (Decidable (r.frontier ≤ frontier))
  | .record _ => inferInstanceAs (Decidable True)
  | .evict frontier => inferInstanceAs (Decidable (r.frontier ≤ frontier))

/-- Only keys of the admission before it are recorded. -/
def FollowsAdmission (r : IdempRun) : IdempCall → Prop
  | .record entry => entry.key ∈ r.admitted
  | _ => True

instance (r : IdempRun) : (call : IdempCall) → Decidable (r.FollowsAdmission call)
  | .record entry => inferInstanceAs (Decidable (entry.key ∈ r.admitted))
  | .admitNewKey _ _ | .admitNewKeys _ _ | .evict _ => inferInstanceAs (Decidable True)

end IdempRun

namespace IdempotencyStore

/-- Keys of the batch that are not durable. -/
def freshKeys (s : IdempotencyStore) (keys : List Nat) : List Nat :=
  (keys.filter fun key => !s.containsKey key).dedup

/-- Keys of the batch that are durable but outside the window. -/
def agedKeys (s : IdempotencyStore) (keys : List Nat) (frontier : Nat) : List Nat :=
  (keys.filter fun key => (s.get key).any fun e =>
    e.recordedGlobalSequence < windowFloor s.retention frontier).dedup

/-- How many keys are inside the window. -/
def windowSize (s : IdempotencyStore) (frontier : Nat) : Nat :=
  (s.map.filter fun e => windowFloor s.retention frontier ≤ e.recordedGlobalSequence).length

/-- When the fresh keys of a batch push the map over the cap and fit it once the keys outside
the window are gone, the batch's own keys among those fit it too. -/
def RoomForOwn (s : IdempotencyStore) (keys : List Nat) (frontier : Nat) : Prop :=
  ∀ maxKeys ∈ s.retention.maxKeys,
    s.freshKeys keys ≠ [] → maxKeys < s.map.length + (s.freshKeys keys).length →
    s.windowSize frontier + (s.freshKeys keys).length ≤ maxKeys →
    s.windowSize frontier + (s.freshKeys keys).length + (s.agedKeys keys frontier).length ≤ maxKeys

instance (s : IdempotencyStore) (keys : List Nat) (frontier : Nat) :
    Decidable (s.RoomForOwn keys frontier) :=
  inferInstanceAs (Decidable (∀ _ ∈ s.retention.maxKeys, _))

end IdempotencyStore

/-- Every batch finds room for the keys that its own admission ages out. -/
def IdempRun.BatchHasRoom (r : IdempRun) : IdempCall → Prop
  | .admitNewKeys keys frontier => r.store.RoomForOwn keys frontier
  | _ => True

instance (r : IdempRun) : (call : IdempCall) → Decidable (r.BatchHasRoom call)
  | .admitNewKeys keys frontier => inferInstanceAs (Decidable (r.store.RoomForOwn keys frontier))
  | .admitNewKey _ _ | .record _ | .evict _ => inferInstanceAs (Decidable True)

end Batpak.Store
