/-
Module: Batpak.Bvisor.CanonicalPolicy
Purpose: The canonical form of a capability policy: a family byte, a variant byte and the
  normalized payload, with every list counted and every text behind its length.
Trusted boundary: none
Main exports: CanonicalPolicy.ofFd, CanonicalPolicy.ofSpawn
-/
import Batpak.Bvisor.Boundary
import Batpak.Util.KeyOrder
import Batpak.Util.Packed

namespace Batpak.Bvisor

open Util

inductive Family where
  | fd
  | spawn
  | env
  | net
  deriving Repr, Inhabited, DecidableEq

def Family.byte : Family → UInt8
  | fd => 0x01
  | spawn => 0x02
  | env => 0x03
  | net => 0x04

structure CanonicalPolicy where
  bytes : List UInt8
  deriving Repr, DecidableEq

/-- `as_bytes` of a text. -/
def textBytes (text : String) : List UInt8 :=
  text.toUTF8.data.toList

/-! ### The encoder -/

structure Encoder where
  bytes : List UInt8

namespace Encoder

def new (family : Family) : Encoder :=
  ⟨[family.byte]⟩

def extend (enc : Encoder) (bytes : List UInt8) : Encoder :=
  ⟨enc.bytes ++ bytes⟩

def variant (enc : Encoder) (discriminant : UInt8) : Encoder :=
  enc.extend [discriminant]

/-- The low eight bytes of the length, as `as u64` keeps them. -/
def count (enc : Encoder) (n : Nat) : Encoder :=
  enc.extend (beBytes 8 n)

def lenPrefixedU32List (enc : Encoder) (items : List (BitVec 32)) : Encoder :=
  items.foldl (fun enc item => enc.extend (beBytes 4 item.toNat)) (enc.count items.length)

/-- The tag of a source and the text it carries. -/
def tagged : EnvSource → UInt8 × String
  | .literal value => (0, value)
  | .secretLease reference => (1, reference.id)

def envEntry (enc : Encoder) (entry : EnvEntry) : Encoder :=
  let name := textBytes entry.name
  let (tag, payload) := tagged entry.source
  let payload := textBytes payload
  ((((enc.count name.length).extend name).extend [tag]).count payload.length).extend payload

def lenPrefixedEnvList (enc : Encoder) (items : List EnvEntry) : Encoder :=
  items.foldl envEntry (enc.count items.length)

def netDest (enc : Encoder) (dest : NetDest) : Encoder :=
  let raw := textBytes dest.host
  ((enc.count raw.length).extend raw).extend (beBytes 2 dest.port.toNat)

def lenPrefixedDestList (enc : Encoder) (items : List NetDest) : Encoder :=
  items.foldl netDest (enc.count items.length)

def finish (enc : Encoder) : CanonicalPolicy :=
  ⟨enc.bytes⟩

end Encoder

/-! ### The normal form of each family -/

/-- By host and then by port. -/
def NetDest.key (dest : NetDest) : String ×ₗ Nat :=
  toLex (dest.host, dest.port.toNat)

namespace CanonicalPolicy

def ofFd (policy : FdPolicy) : CanonicalPolicy :=
  let enc := Encoder.new .fd
  match policy with
  | .none => (enc.variant 0).finish
  | .only fds =>
      let sorted := sortDedup (fun a b => a.toNat ≤ b.toNat) fds
      ((enc.variant 1).lenPrefixedU32List sorted).finish

def ofSpawn (policy : SpawnPolicy) : CanonicalPolicy :=
  let enc := Encoder.new .spawn
  match policy with
  | .denyNewTasks => (enc.variant 0).finish
  | .allowThreadsWithinBoundary => (enc.variant 1).finish
  | .allowDescendantsWithinBoundary => (enc.variant 2).finish

/-- Sorted by name only, and nothing is dropped. -/
def ofEnv (policy : EnvPolicy) : CanonicalPolicy :=
  let enc := Encoder.new .env
  match policy with
  | .exact entries =>
      let sorted := sortOn EnvEntry.name entries
      ((enc.variant 0).lenPrefixedEnvList sorted).finish

def ofNet (policy : NetPolicy) : CanonicalPolicy :=
  let enc := Encoder.new .net
  match policy with
  | .denyAll => (enc.variant 0).finish
  | .allowList destinations =>
      let sorted := sortDedup (fun a b => a.key ≤ b.key) destinations
      ((enc.variant 1).lenPrefixedDestList sorted).finish

end CanonicalPolicy

end Batpak.Bvisor
