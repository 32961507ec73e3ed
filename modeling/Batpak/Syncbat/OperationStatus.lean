/-
Module: Batpak.Syncbat.OperationStatus
Purpose: The status view of an operation: how one fact is folded into it, its replay from
  events, and the incremental apply that it declares support for.
Trusted boundary: `fromBytes` is the MessagePack decoder of status facts
Main exports: OperationStatusView, fromEvents
-/
import Batpak.Syncbat.Core

namespace Batpak.Syncbat

open Batpak.Util
open Batpak.Store (EventKind)

/-- The custom kind 0x5B9 of the category 0xC. -/
def syncbatOperationStatusEventKind : EventKind :=
  ⟨0xC5B9⟩

/-- An event as a raw projection reads it. -/
structure ProjectionEvent where
  eventKind : EventKind
  payload : Bytes

def u64Max : Nat :=
  2 ^ 64 - 1

def saturatingAdd (a b : Nat) : Nat :=
  min (a + b) u64Max

structure OperationStatusView where
  schemaVersion : Nat
  operation : String
  lifecycle : OperationStatusLifecycle
  attemptsSeen : Nat
  startedCount : Nat
  completedCount : Nat
  failedCount : Nat
  deniedCount : Nat
  lastPhase : Option String
  lastReceiptKind : Option String
  lastCode : Option String
  lastMessage : Option String
  lastInputHash : Option Bytes
  lastOutputHash : Option Bytes
  deriving Repr, DecidableEq

namespace OperationStatusView

/-! ### One fact -/

def terminalCount (view : OperationStatusView) : Nat :=
  saturatingAdd (saturatingAdd view.completedCount view.failedCount) view.deniedCount

def hasOpenAttempt (view : OperationStatusView) : Bool :=
  view.terminalCount < view.startedCount

def updateTerminalFields (view : OperationStatusView) (fact : OperationStatusFactV1) :
    OperationStatusView :=
  { view with
    lastReceiptKind := fact.receiptKind
    lastCode := fact.code
    lastMessage := fact.message
    lastInputHash := fact.inputHash
    lastOutputHash := fact.outputHash }

def applyFactTo (view : OperationStatusView) (fact : OperationStatusFactV1) :
    OperationStatusView :=
  let view := { view with operation := fact.operation, lifecycle := fact.lifecycle }
  match fact.lifecycle with
  | .started =>
      { view with
        attemptsSeen := saturatingAdd view.attemptsSeen 1
        startedCount := saturatingAdd view.startedCount 1
        lastPhase := some "started" }
  | .completed =>
      updateTerminalFields { view with
        completedCount := saturatingAdd view.completedCount 1
        lastPhase := some "completed" } fact
  | .failed =>
      updateTerminalFields { view with
        failedCount := saturatingAdd view.failedCount 1
        lastPhase := some "failed" } fact
  | .denied =>
      updateTerminalFields { view with
        attemptsSeen :=
          if view.hasOpenAttempt then view.attemptsSeen else saturatingAdd view.attemptsSeen 1
        deniedCount := saturatingAdd view.deniedCount 1
        lastPhase := some "denied" } fact

/-- The view that the first fact of an operation is folded into. -/
def empty (fact : OperationStatusFactV1) : OperationStatusView :=
  ⟨1, fact.operation, .started, 0, 0, 0, 0, 0, none, none, none, none, none, none⟩

def applyFact (existing : Option OperationStatusView) (fact : OperationStatusFactV1) :
    OperationStatusView :=
  (existing.getD (empty fact)).applyFactTo fact

/-! ### Projection -/

variable (fromBytes : Bytes → Option OperationStatusFactV1)

def decodeFact (event : ProjectionEvent) : Option OperationStatusFactV1 :=
  if event.eventKind ≠ syncbatOperationStatusEventKind then none else fromBytes event.payload

/-- One turn of the replay; an event that does not decode ends it without a view. -/
def replayEvent (view : Option OperationStatusView) (event : ProjectionEvent) :
    Option (Option OperationStatusView) := do
  let fact ← decodeFact fromBytes event
  match view with
  | none => some (some (applyFact none fact))
  | some current => some (some (current.applyFactTo fact))

def fromEvents (events : List ProjectionEvent) : Option OperationStatusView :=
  (events.foldlM (replayEvent fromBytes) none).join

def applyEvent (view : OperationStatusView) (event : ProjectionEvent) : OperationStatusView :=
  match decodeFact fromBytes event with
  | some fact => view.applyFactTo fact
  | none => view

end OperationStatusView

end Batpak.Syncbat
