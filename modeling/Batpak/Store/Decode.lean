/-
Module: Batpak.Store.Decode
Purpose: Payload types with their schema version and the decode seam both replay lanes share.
Trusted boundary: the serde implementations of a payload type and the steps of the registry
  are parameters; a JSON value survives its detour through MessagePack
Main exports: EventPayload, UpcastRegistration
-/
import Batpak.Store.Payload

namespace Batpak.Store

open Batpak.Util

/-! ### Payload types -/

/-- A payload type: its kind, the version of its shape, and its serde implementations. -/
structure EventPayload (α : Type) where
  kind : EventKind
  payloadVersion : Nat
  toBytes : α → Except String Bytes
  fromBytes : Bytes → Except String α
  fromJson : Json → Except String α
  /-- Re-encode an upcast value and decode it, under the contract of `fromBytes`. -/
  fromValue : Msgpack → Except String α

/-! ### The upcast chain -/

inductive UpcastError where
  | missingStep (kind : EventKind) (fromVersion toVersion : Nat)
  | duplicateStep (kind : EventKind) (fromVersion : Nat)
  | step (kind : EventKind) (fromVersion : Nat) (source : String)
  | valueCodec (message : String)
  deriving Repr, DecidableEq

/-- A migration of one version to the next, linked in for one kind. -/
structure UpcastRegistration where
  kindBits : Nat
  fromVersion : Nat
  step : Msgpack → Except String Msgpack

def upcastStepsFor (registry : List UpcastRegistration) (kind : EventKind) :
    List UpcastRegistration :=
  registry.filter fun reg => reg.kindBits = kind.raw

/-- The hops that are left, one registered step each. -/
def runHops (registry : List UpcastRegistration) (kind : EventKind) (toVersion : Nat) :
    Nat → Nat → Msgpack → Except UpcastError Msgpack
  | 0, _, value => .ok value
  | hops + 1, current, value =>
      match (upcastStepsFor registry kind).filter fun reg => reg.fromVersion = current with
      | [] => .error (.missingStep kind current toVersion)
      | _ :: _ :: _ => .error (.duplicateStep kind current)
      | [reg] =>
          match reg.step value with
          | .error source => .error (.step kind current source)
          | .ok lifted => runHops registry kind toVersion hops (current + 1) lifted

def runChain (registry : List UpcastRegistration) (kind : EventKind) (value : Msgpack)
    (fromVersion toVersion : Nat) : Except UpcastError Msgpack :=
  runHops registry kind toVersion (toVersion - fromVersion) fromVersion value

def upcastAndDecode {α : Type} (registry : List UpcastRegistration) (T : EventPayload α)
    (value : Msgpack) (fromVersion toVersion : Nat) : Except UpcastError α := do
  let lifted ← runChain registry T.kind value fromVersion toVersion
  match T.fromValue lifted with
  | .error e => .error (.valueCodec ("decode upcasted value into target: " ++ e))
  | .ok payload => .ok payload

/-- Bytes behind the value are refused here. -/
def valueFromMsgpack (bytes : Bytes) : Except UpcastError Msgpack :=
  match Msgpack.read depthLimit bytes with
  | none => .error (.valueCodec "read stored msgpack as value")
  | some (value, rest) =>
      if rest = [] then .ok value
      else .error (.valueCodec (toString rest.length ++ " trailing byte(s) after stored msgpack value"))

def valueFromJson (value : Json) : Except UpcastError Msgpack :=
  .ok value.toMsgpack

/-! ### The decode seam -/

inductive DecodeSource where
  | json (error : String)
  | msgpack (error : String)
  deriving Repr, DecidableEq

inductive TypedDecodeError where
  | kindMismatch (expected got : EventKind)
  | decodeFailure (kind : EventKind) (source : DecodeSource)
  | futureVersion (kind : EventKind) (stored current : Nat)
  | upcast (kind : EventKind) (source : UpcastError)
  deriving Repr, DecidableEq

/-- The branch of an older version: the lane's value through the chain, then the decode. -/
def decodeOlder {α : Type} (registry : List UpcastRegistration) (T : EventPayload α)
    (kind : EventKind) (stored : Nat) (value : Except UpcastError Msgpack) :
    Except TypedDecodeError α :=
  match value with
  | .error source => .error (.upcast kind source)
  | .ok value =>
      match upcastAndDecode registry T value stored T.payloadVersion with
      | .error source => .error (.upcast kind source)
      | .ok payload => .ok payload

/-- The version dispatch of both lanes. Version zero is an untyped frame and is read as
current. -/
def decodeVersioned {α : Type} (registry : List UpcastRegistration) (T : EventPayload α)
    (kind : EventKind) (stored : Nat) (decodeCurrent : Except TypedDecodeError α)
    (value : Except UpcastError Msgpack) : Except TypedDecodeError α :=
  if stored = T.payloadVersion ∨ stored = 0 then decodeCurrent
  else if T.payloadVersion < stored then .error (.futureVersion kind stored T.payloadVersion)
  else decodeOlder registry T kind stored value

/-- A replay lane: how it reads a payload that is current, and how it hands one to the
chain. -/
class DecodeTyped (P : Type) where
  decodeCurrent : {α : Type} → EventPayload α → P → Except DecodeSource α
  toValue : P → Except UpcastError Msgpack

instance : DecodeTyped Bytes where
  decodeCurrent T bytes := (T.fromBytes bytes).mapError .msgpack
  toValue := valueFromMsgpack

instance : DecodeTyped Json where
  decodeCurrent T value := (T.fromJson value).mapError .json
  toValue := valueFromJson

section Lanes

variable {P α : Type} [DecodeTyped P] (registry : List UpcastRegistration) (T : EventPayload α)

def decodeLane (kind : EventKind) (stored : Nat) (payload : P) : Except TypedDecodeError α :=
  decodeVersioned registry T kind stored
    ((DecodeTyped.decodeCurrent T payload).mapError (.decodeFailure kind))
    (DecodeTyped.toValue payload)

def decodeTyped (event : Event P) : Except TypedDecodeError α :=
  if event.header.kind ≠ T.kind then .error (.kindMismatch T.kind event.header.kind)
  else decodeLane registry T event.header.kind event.header.payloadVersion event.payload

end Lanes

end Batpak.Store
