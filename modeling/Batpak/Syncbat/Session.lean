/-
Module: Batpak.Syncbat.Session
Purpose: What passes between a subscription session and its transport: deliveries one way,
  control inputs the other.
Trusted boundary: none
Main exports: RuntimeCursor, SessionDelivery
-/
import Batpak.Util.Wire

namespace Batpak.Syncbat

open Batpak.Util

/-- A `u64` is written as a literal. -/
instance nonzeroU64 : NeZero (2 ^ 64) := ⟨by decide⟩

/-- Opaque cursor bytes. -/
abbrev RuntimeCursor := Bytes

structure SessionEventDelivery where
  subscriptionId : Bytes
  deliveryIndex : Fin (2 ^ 64)
  cursorBefore : RuntimeCursor
  cursorAfter : RuntimeCursor
  wirePayloadSchemaRef : Bytes
  envelopeBytes : Bytes
  deriving Repr, DecidableEq

structure SessionWatermarkDelivery where
  subscriptionId : Bytes
  deliveryIndex : Fin (2 ^ 64)
  cursorAfter : RuntimeCursor
  deriving Repr, DecidableEq

structure SessionError where
  subscriptionId : Option Bytes
  code : Bytes
  lastDeliveredCursor : Option RuntimeCursor
  lastAckedCursor : Option RuntimeCursor
  message : Bytes
  deriving Repr, DecidableEq

structure SessionEnd where
  subscriptionId : Bytes
  reasonCode : Bytes
  cursorAfter : Option RuntimeCursor
  deriving Repr, DecidableEq

inductive SessionDelivery where
  | event (event : SessionEventDelivery)
  | watermark (watermark : SessionWatermarkDelivery)
  | error (error : SessionError)
  | ended (ended : SessionEnd)
  deriving Repr, DecidableEq

/-- What the client's frames come to. -/
inductive SessionControl where
  | ack (deliveryIndex : Nat) (cursor : RuntimeCursor)
  | cancel
  | disconnected
  | malformed
  deriving Repr, Inhabited, DecidableEq

end Batpak.Syncbat
