/-
Module: Batpak.Netbat.StreamTcp
Purpose: The two halves of a subscription connection: the loop that reads control frames, and
  the frames the deliveries of the session are written as.
Trusted boundary: the results of single reads are data
Main exports: readControlLoop, deliveryToFrame
-/
import Batpak.Netbat.Stream
import Batpak.Syncbat.Session

namespace Batpak.Netbat

open Batpak.Util Batpak.Syncbat

/-! ### The control reader -/

def timeoutKind (kind : ErrorKind) : Bool :=
  kind = .wouldBlock || kind = .timedOut

/-- What a frame makes the reader send, and whether it goes on. -/
def controlOfFrame (subscriptionId : SubscriptionToken) : StreamFrame → SessionControl × Bool
  | .subAck frame =>
      if frame.subscriptionId.text ≠ subscriptionId.text then (.malformed, false)
      else (.ack frame.deliveryIndex.value frame.cursorAfter, true)
  | .subCancel frame =>
      if frame.subscriptionId.text ≠ subscriptionId.text then (.malformed, false)
      else (.cancel, false)
  | _ => (.malformed, false)

/-- A line that was read, as a control input. -/
def controlOfLine (limits : Limits) (subscriptionId : SubscriptionToken) (line : Bytes) :
    SessionControl × Bool :=
  match decodeStreamLine line limits with
  | .ok frame => controlOfFrame subscriptionId frame
  | .error _ => (.malformed, false)

/-- The turns of the loop while the stop flag is down: it is raised only when the session has
ended and nothing takes the inputs any more. -/
def readControlTurns (limits : Limits) (subscriptionId : SubscriptionToken) :
    Nat → List ReadEvent → List SessionControl
  | 0, _ => []
  | turns + 1, events =>
      match readLine limits.maxLineBytes events with
      | .waiting => []
      | .returned (.ok line) rest =>
          let (control, goesOn) := controlOfLine limits subscriptionId line
          if goesOn then control :: readControlTurns limits subscriptionId turns rest
          else [control]
      | .returned (.error (.io kind)) rest =>
          if timeoutKind kind then readControlTurns limits subscriptionId turns rest
          else [.disconnected]
      | .returned (.error .emptyStream) _ => [.disconnected]
      | .returned (.error _) _ => [.malformed]

/-- The control inputs sent to the session. Every turn takes a read, and one more turn sees
the end of the stream. -/
def readControlLoop (limits : Limits) (subscriptionId : SubscriptionToken)
    (events : List ReadEvent) : List SessionControl :=
  readControlTurns limits subscriptionId (events.length + 1) events

/-! ### Deliveries -/

def encodeMaybeCursor (cursor : RuntimeCursor) : MaybeCursor :=
  .present cursor

def optionalCursor : Option RuntimeCursor → MaybeCursor
  | some cursor => encodeMaybeCursor cursor
  | none => .absent

/-- The given error in place of the one raised. -/
def orMalformed {α : Type} (reason : String) (x : Except NetbatError α) : Except NetbatError α :=
  x.mapError fun _ => .malformedStreamFrame reason

/-- An error without a subscription goes out under a name of its own. -/
def errorSubscription (limits : Limits) : Option Bytes → Except NetbatError SubscriptionToken
  | some id => SubscriptionToken.new id limits
  | none =>
      orMalformed "missing subscription id on stream error"
        (SubscriptionToken.new (ascii "unknown.invalid.v1") limits)

def mapErrorFrame (error : SessionError) (limits : Limits) : Except NetbatError SubErrFrame := do
  let subscriptionId ← errorSubscription limits error.subscriptionId
  let code ← orMalformed "stream error code invalid" (StreamReasonCode.new error.code)
  return ⟨subscriptionId, code, optionalCursor error.lastDeliveredCursor,
    optionalCursor error.lastAckedCursor, error.message⟩

def mapEndFrame (ended : SessionEnd) (limits : Limits) : Except NetbatError SubEndFrame := do
  let subscriptionId ← SubscriptionToken.new ended.subscriptionId limits
  let reasonCode ← orMalformed "stream end code invalid" (StreamReasonCode.new ended.reasonCode)
  return ⟨subscriptionId, optionalCursor ended.cursorAfter, reasonCode⟩

def deliveryToFrame (limits : Limits) : SessionDelivery → Except NetbatError StreamFrame
  | .event event => do
      let subscriptionId ← SubscriptionToken.new event.subscriptionId limits
      let schema ← orMalformed "payload schema ref invalid"
        (PayloadSchemaRef.new event.wirePayloadSchemaRef)
      let deliveryIndex ← DeliveryIndex.new event.deliveryIndex
      return .subEvent ⟨subscriptionId, deliveryIndex, encodeMaybeCursor event.cursorBefore,
        encodeMaybeCursor event.cursorAfter, schema, event.envelopeBytes⟩
  | .watermark watermark => do
      let subscriptionId ← SubscriptionToken.new watermark.subscriptionId limits
      let deliveryIndex ← DeliveryIndex.new watermark.deliveryIndex
      return .subWatermark ⟨subscriptionId, deliveryIndex, watermark.cursorAfter⟩
  | .error error => do
      let frame ← mapErrorFrame error limits
      return .subErr frame
  | .ended ended => do
      let frame ← mapEndFrame ended limits
      return .subEnd frame

/-- The line written for a delivery. -/
def writeDelivery (limits : Limits) (delivery : SessionDelivery) : Except NetbatError Bytes := do
  let frame ← deliveryToFrame limits delivery
  return encodeStreamFrame frame

end Batpak.Netbat
