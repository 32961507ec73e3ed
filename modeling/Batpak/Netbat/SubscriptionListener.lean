/-
Module: Batpak.Netbat.SubscriptionListener
Purpose: The subscription listener: one stream from its first line to the last delivery, and
  the accept loop that serves one connection after another.
Trusted boundary: the results of socket calls are data, and so are the answers of the runtime's
  sessions; the runtime opens sessions through a function
Main exports: SubscriptionRuntimeError, Connection
-/
import Batpak.Netbat.StreamTcp

namespace Batpak.Netbat

open Batpak.Util Batpak.Syncbat

/-! ### The runtime behind the listener -/

inductive SubscriptionRuntimeError where
  | invalidSubscriptionId (reason : String)
  | duplicateSubscription (id : Bytes)
  | invalidRoute (reason : String)
  | invalidConfig (reason : String)
  | unknownSubscription (id : Bytes)
  | cursorInvalid (reason : String)
  | cursorMismatch (reason : String)
  | store
  | envelopeEncoding
  | worker
  | ackInvalid (reason : String)
  deriving Repr, DecidableEq

inductive SessionPoll where
  | delivery (delivery : SessionDelivery)
  | blocked
  | ended
  deriving DecidableEq

/-- Whether a session opens for a subscription, a resume cursor and a window. One function for
the whole run: the same request gets the same answer each time. -/
abbrev SubscriptionSessionFactory :=
  Bytes → Option Bytes → ClientWindow → Except SubscriptionRuntimeError Unit

def cursorInvalidCode : String := "cursor_invalid"

def cursorMismatchCode : String := "cursor_mismatch"

def unknownSubscriptionError (subscriptionId : Bytes) : SessionDelivery :=
  .error ⟨some subscriptionId, ascii "unknown_subscription", none, none, subscriptionId⟩

def openErrorForSubscription (subscriptionId : Bytes) (code reason : String) : SessionDelivery :=
  .error ⟨some subscriptionId, ascii code, none, none, ascii reason⟩

/-- The terminal frame for a session that did not open. -/
def mapOpenError (subscriptionId : Bytes) : SubscriptionRuntimeError → SessionDelivery
  | .unknownSubscription _ => unknownSubscriptionError subscriptionId
  | .cursorInvalid reason => openErrorForSubscription subscriptionId cursorInvalidCode reason
  | .cursorMismatch reason => openErrorForSubscription subscriptionId cursorMismatchCode reason
  | .invalidSubscriptionId reason =>
      openErrorForSubscription subscriptionId cursorInvalidCode reason
  | .duplicateSubscription _ =>
      openErrorForSubscription subscriptionId cursorInvalidCode "duplicate subscription route"
  | .invalidRoute reason => openErrorForSubscription subscriptionId cursorInvalidCode reason
  | .invalidConfig reason => openErrorForSubscription subscriptionId cursorInvalidCode reason
  | .store =>
      openErrorForSubscription subscriptionId cursorInvalidCode "store error during subscribe"
  | .envelopeEncoding =>
      openErrorForSubscription subscriptionId cursorInvalidCode "envelope encoding failed"
  | .worker =>
      openErrorForSubscription subscriptionId cursorInvalidCode "subscription worker failed"
  | .ackInvalid reason => openErrorForSubscription subscriptionId cursorInvalidCode reason

def mapRuntimeError : SubscriptionRuntimeError → NetbatError
  | .store => .malformedStreamFrame "store error during stream poll"
  | .invalidSubscriptionId reason => .malformedStreamFrame reason
  | .duplicateSubscription _ => .malformedStreamFrame "duplicate subscription route"
  | .invalidRoute reason => .malformedStreamFrame reason
  | .invalidConfig reason => .malformedStreamFrame reason
  | .unknownSubscription _ => .malformedStreamFrame "unknown subscription"
  | .cursorInvalid reason => .malformedStreamFrame reason
  | .cursorMismatch reason => .malformedStreamFrame reason
  | .envelopeEncoding => .malformedStreamFrame "envelope encoding failed"
  | .worker => .malformedStreamFrame "subscription worker failed"
  | .ackInvalid reason => .malformedStreamFrame reason

/-! ### One stream -/

structure SubscriptionServeStats where
  acceptedConnections : Nat := 0
  servedSubscriptions : Nat := 0
  failedSubscriptions : Nat := 0
  malformedPreSubscribe : Nat := 0
  runtimeFailures : Nat := 0
  connectionIoFailures : Nat := 0
  shutdownRequested : Bool := false
  deriving Repr, Inhabited, DecidableEq

/-- What happens to one accepted connection: the socket options and the second handle, the
reads of the first line, the start of the control thread, the answers of the session to its
polls, and which of the writes fails. -/
structure Connection where
  optionsFail : Option ErrorKind := none
  cloneFails : Option ErrorKind := none
  reads : List ReadEvent := []
  spawnFails : Option ErrorKind := none
  polls : List (Except SubscriptionRuntimeError SessionPoll) := []
  writeFails : Nat → Option ErrorKind := fun _ => none

/-- Still being served, or done. -/
inductive Served (α : Type) where
  | pending
  | done (result : Except NetbatError α)

/-- A socket call. -/
def ioResult : Option ErrorKind → Except NetbatError Unit
  | some kind => .error (.io kind)
  | none => .ok ()

/-- The frame is made before anything is written. -/
def sendDelivery (limits : Limits) (writeFails : Option ErrorKind) (delivery : SessionDelivery) :
    Except NetbatError Unit := do
  let _ ← writeDelivery limits delivery
  ioResult writeFails

def terminalDelivery : SessionDelivery → Bool
  | .error _ => true
  | .ended _ => true
  | .event _ => false
  | .watermark _ => false

/-- The loop with the number of writes so far. -/
def runSubscriptionLoop (limits : Limits) (writeFails : Nat → Option ErrorKind) :
    Nat → List (Except SubscriptionRuntimeError SessionPoll) → Served Unit
  | _, [] => .pending
  | _, .error error :: _ => .done (.error (mapRuntimeError error))
  | written, .ok .blocked :: rest => runSubscriptionLoop limits writeFails written rest
  | _, .ok .ended :: _ => .done (.ok ())
  | written, .ok (.delivery delivery) :: rest =>
      match sendDelivery limits (writeFails written) delivery with
      | .error error => .done (.error error)
      | .ok () =>
          if terminalDelivery delivery then .done (.ok ())
          else runSubscriptionLoop limits writeFails (written + 1) rest

def decodeSubscribeRequest (line : Bytes) (limits : Limits) : Except NetbatError SubscribeFrame :=
  match decodeStreamLine line limits with
  | .ok (.subscribe frame) => .ok frame
  | .ok _ => .error (.malformedStreamFrame "first stream frame must be SUBSCRIBE")
  | .error error => .error error

def maybeCursorBytes : MaybeCursor → Option Bytes
  | .absent => none
  | .present cursor => some cursor

/-- The stream of a subscription that was asked for. -/
def serveSubscribe (limits : Limits) (runtime : SubscriptionSessionFactory) (c : Connection)
    (subscribe : SubscribeFrame) : Served SubscriptionServeStats :=
  match runtime subscribe.subscriptionId.text (maybeCursorBytes subscribe.resumeCursor)
      subscribe.clientWindow with
  | .error (.invalidConfig reason) => .done (.error (mapRuntimeError (.invalidConfig reason)))
  | .error error =>
      let delivery := mapOpenError subscribe.subscriptionId.text error
      match sendDelivery limits (c.writeFails 0) delivery with
      | .error error => .done (.error error)
      | .ok () => .done (.ok { failedSubscriptions := 1 })
  | .ok () =>
      match ioResult c.spawnFails with
      | .error error => .done (.error error)
      | .ok () =>
          match runSubscriptionLoop limits c.writeFails 0 c.polls with
          | .pending => .pending
          | .done (.error error) => .done (.error error)
          | .done (.ok ()) => .done (.ok { servedSubscriptions := 1 })

def serveSubscriptionStream (limits : Limits) (runtime : SubscriptionSessionFactory)
    (c : Connection) : Served SubscriptionServeStats :=
  match readLine limits.maxLineBytes c.reads with
  | .waiting => .pending
  | .returned (.error .emptyStream) _ => .done (.ok {})
  | .returned (.error error) _ => .done (.error error)
  | .returned (.ok firstLine) _ =>
      match decodeSubscribeRequest firstLine limits with
      | .error _ => .done (.ok { failedSubscriptions := 1, malformedPreSubscribe := 1 })
      | .ok subscribe => serveSubscribe limits runtime c subscribe

def serveConnection (limits : Limits) (runtime : SubscriptionSessionFactory) (c : Connection) :
    Served SubscriptionServeStats :=
  match ioResult c.cloneFails with
  | .error error => .done (.error error)
  | .ok () => serveSubscriptionStream limits runtime c

/-! ### The accept loop -/

inductive AcceptError where
  | wouldBlock
  | interrupted
  | fatal
  deriving Repr, DecidableEq

def classifyAcceptError (kind : ErrorKind) : AcceptError :=
  if kind = .wouldBlock then .wouldBlock
  else if kind = .interrupted then .interrupted
  else .fatal

structure SubscriptionServerConfig where
  limits : Limits
  maxConnections : Nat

def mergeStats (total connection : SubscriptionServeStats) : SubscriptionServeStats :=
  { total with
    servedSubscriptions := total.servedSubscriptions + connection.servedSubscriptions
    failedSubscriptions := total.failedSubscriptions + connection.failedSubscriptions
    malformedPreSubscribe := total.malformedPreSubscribe + connection.malformedPreSubscribe
    runtimeFailures := total.runtimeFailures + connection.runtimeFailures
    connectionIoFailures := total.connectionIoFailures + connection.connectionIoFailures }

/-- One turn of the loop: whether the shutdown handle is set by then, and what `accept`
returns if it is called. -/
structure ListenerTurn where
  shutdown : Bool := false
  accept : Except ErrorKind Connection

/-- The listener is before its next turn, is busy with a connection, has returned its summary,
or has failed. -/
inductive Listening where
  | accepting (stats : SubscriptionServeStats)
  | serving (stats : SubscriptionServeStats)
  | returned (stats : SubscriptionServeStats)
  | failed (error : NetbatError)
  deriving Repr, DecidableEq

section Listener

variable (config : SubscriptionServerConfig) (runtime : SubscriptionSessionFactory)

/-- One pass through the loop body, past its condition. -/
def listenerTurn (stats : SubscriptionServeStats) (accept : Except ErrorKind Connection) :
    Listening :=
  match accept with
  | .error kind =>
      match classifyAcceptError kind with
      | .wouldBlock => .accepting stats
      | .interrupted => .accepting stats
      | .fatal => .failed (.io kind)
  | .ok c =>
      let stats := { stats with acceptedConnections := stats.acceptedConnections + 1 }
      match ioResult c.optionsFail with
      | .error error => .failed error
      | .ok () =>
          match serveConnection config.limits runtime c with
          | .pending => .serving stats
          | .done (.ok connectionStats) => .accepting (mergeStats stats connectionStats)
          | .done (.error (.io _)) =>
              .accepting { stats with connectionIoFailures := stats.connectionIoFailures + 1 }
          | .done (.error error) => .failed error

def serveListener : SubscriptionServeStats → List ListenerTurn → Listening
  | stats, [] => .accepting stats
  | stats, turn :: rest =>
      if turn.shutdown then .returned { stats with shutdownRequested := true }
      else if ¬ stats.acceptedConnections < config.maxConnections then .returned stats
      else
        match listenerTurn config runtime stats turn.accept with
        | .accepting stats => serveListener stats rest
        | .serving stats => .serving stats
        | .returned stats => .returned stats
        | .failed error => .failed error

end Listener

end Batpak.Netbat
