/-
Module: Batpak.Syncbat.StreamSession
Purpose: The sessions of event-category, receipt and entity subscriptions, a poll as the separate
  steps between which the store publishes.
Trusted boundary: decoding a stored receipt and encoding an envelope are functions; a publish
  makes its events visible before it advances the frontier, and never below a visible event
Main exports: StreamEntry, StoreFeed
-/
import Batpak.Store.Query
import Batpak.Syncbat.StreamCursor

namespace Batpak.Syncbat

open Batpak.Util
open Batpak.Store (Coordinate EventKind Region)

/-! ### The store as a stream sees it -/

structure StreamEntry where
  eventId : Nat
  globalSequence : U64
  wallMs : U64
  coord : Coordinate
  kind : EventKind
  payload : Bytes
  deriving Repr, DecidableEq

structure FeedPoint where
  wallMs : U64
  globalSequence : U64
  deriving Repr, DecidableEq

/-- The order in which events become visible. -/
def InCommitOrder (entries : List StreamEntry) : Prop :=
  entries.Pairwise fun a b => a.globalSequence < b.globalSequence

instance (entries : List StreamEntry) : Decidable (InCommitOrder entries) :=
  inferInstanceAs (Decidable (List.Pairwise _ entries))

/-- At the start of the sequence, or not past the last visible event. -/
def FeedPoint.Reached (visible : List StreamEntry) (point : FeedPoint) : Prop :=
  point.globalSequence = 0 ∨ ∃ e ∈ visible, point.globalSequence ≤ e.globalSequence

/-- The visible events and the frontier. The point of a publish whose frontier has not been
advanced yet is pending. -/
structure StoreFeed where
  visible : List StreamEntry
  frontier : FeedPoint
  pending : Option FeedPoint
  ordered : InCommitOrder visible
  reached : frontier.Reached visible
  pendingReached : ∀ point ∈ pending, point.Reached visible

namespace StoreFeed

def isAfter : Option U64 → U64 → Bool
  | none, _ => true
  | some after, sequence => after < sequence

def queryEntriesAfter (feed : StoreFeed) (region : Region) (after : Option U64) (limit : Nat) :
    List StreamEntry :=
  (feed.visible.filter fun e =>
    region.matchesEventOnLane e.coord.entity e.coord.scope e.kind none &&
      isAfter after e.globalSequence).take limit

/-- The events of one commit become visible, all of them past every visible one. The writer
publishes the next commit only after it has advanced the frontier to this one. -/
def publish (feed : StoreFeed) (entries : List StreamEntry) (last : StreamEntry) : StoreFeed :=
  if h : feed.pending = none ∧ InCommitOrder (feed.visible ++ (entries ++ [last])) then
    { visible := feed.visible ++ (entries ++ [last])
      frontier := feed.frontier
      pending := some ⟨last.wallMs, last.globalSequence⟩
      ordered := h.2
      reached := by
        rcases feed.reached with hzero | ⟨e, he, hle⟩
        · exact .inl hzero
        · exact .inr ⟨e, List.mem_append_left _ he, hle⟩
      pendingReached := by
        intro point hpoint
        cases hpoint
        exact .inr ⟨last, by simp, le_refl _⟩ }
  else feed

/-- The frontier follows the publish. -/
def settle (feed : StoreFeed) : StoreFeed :=
  match h : feed.pending with
  | none => feed
  | some point =>
      { feed with
        frontier :=
          if feed.frontier.globalSequence < point.globalSequence then point else feed.frontier
        pending := none
        reached := by
          split
          · exact feed.pendingReached point (by rw [h]; rfl)
          · exact feed.reached
        pendingReached := by
          intro point hpoint
          cases hpoint }

end StoreFeed

/-! ### Routes -/

inductive StreamSource where
  | eventCategory (category : Nat)
  | receiptStream (receiptKind : String)
  | entityStream (entity scope : String)
  deriving Repr, DecidableEq

def syncbatReceiptEventKind : EventKind := ⟨0xC5B7⟩

namespace StreamSource

def region : StreamSource → Region
  | .eventCategory category => { Region.all with fact := some (.category category) }
  | .receiptStream _ => { Region.all with fact := some (.exact syncbatReceiptEventKind) }
  | .entityStream entity scope =>
      { Region.all with entityPrefix := some entity, scope := some scope }

def format : StreamSource → CursorFormat
  | .eventCategory _ => eventStreamCursorV1
  | .receiptStream _ => receiptStreamCursorV1
  | .entityStream _ _ => entityStreamCursorV1

/-- The receipt and entity sessions look at every entry of a page. -/
def scans : StreamSource → Bool
  | .eventCategory _ => false
  | .receiptStream _ => true
  | .entityStream _ _ => true

/-- A receipt is read before its kind is known. -/
def readsFirst : StreamSource → Bool
  | .receiptStream _ => true
  | _ => false

end StreamSource

/-- The kind of a stored receipt, if it decodes, and the envelope of an event. -/
structure EventReader where
  receiptKind : Bytes → Option String
  envelope : StreamEntry → Bytes

inductive Verdict where
  | skip
  | deliver
  | undecodable
  deriving Repr, DecidableEq

def classify (reader : EventReader) : StreamSource → StreamEntry → Verdict
  | .eventCategory _, _ => .deliver
  | .receiptStream receiptKind, entry =>
      match reader.receiptKind entry.payload with
      | none => .undecodable
      | some kind => if kind ≠ receiptKind then .skip else .deliver
  | .entityStream entity scope, entry =>
      if entry.coord.entity ≠ entity ∨ entry.coord.scope ≠ scope then .skip else .deliver

/-- A route with the limits of the session; the open refuses a limit of zero. -/
structure StreamRoute where
  subscriptionId : Bytes
  source : StreamSource
  wirePayloadSchemaRef : Bytes
  queueCap : Nat
  pageSize : Nat
  cursors : CursorRoute
  reader : EventReader
  capPos : 0 < queueCap
  pagePos : 0 < pageSize
  formatEq : cursors.format = source.format

/-! ### Sessions -/

inductive SessionPhase where
  | replaying
  | live
  | ended
  deriving Repr, DecidableEq

/-- The scan position is `resume_after` of an event session. -/
structure StreamSession where
  phase : SessionPhase
  scanAfter : Option U64
  cursorBeforeNext : StreamCursor
  deliveryIndex : Nat
  lastSentDeliveryIndex : Nat
  lastAckedDeliveryIndex : Nat
  lastDeliveredCursor : Option RuntimeCursor
  lastAckedCursor : Option RuntimeCursor
  sentCursors : List (Nat × RuntimeCursor)
  lastWatermarkedVisibleSeq : U64
  lastQueryReturnedEmpty : Bool
  terminal : Option SessionDelivery
  deriving DecidableEq

namespace StreamRoute

variable (route : StreamRoute)

def runtimeCursor (cursor : StreamCursor) : RuntimeCursor :=
  cursor.encode route.cursors.format

def parseResumeCursor : Option RuntimeCursor → Except String StreamCursor
  | none => .ok (.beginning route.cursors)
  | some bytes => do
      let cursor ← StreamCursor.decode route.cursors.format bytes
      StreamCursor.validateRoute route.cursors cursor
      return cursor

/-- An event session has sent no watermark yet; the other two count the resume cursor as one. -/
def openSession (resumeCursor : Option RuntimeCursor) : Except String StreamSession := do
  let parsed ← route.parseResumeCursor resumeCursor
  let resumeAfter := parsed.resumeAfterGlobalSequence
  return {
    phase := .replaying
    scanAfter := resumeAfter
    cursorBeforeNext := parsed
    deliveryIndex := 1
    lastSentDeliveryIndex := 0
    lastAckedDeliveryIndex := 0
    lastDeliveredCursor := none
    lastAckedCursor := none
    sentCursors := []
    lastWatermarkedVisibleSeq := if route.source.scans then resumeAfter.getD 0 else 0
    lastQueryReturnedEmpty := false
    terminal := none }

end StreamRoute

namespace StreamSession

variable (route : StreamRoute)

def inFlight (s : StreamSession) : Nat :=
  s.lastSentDeliveryIndex - s.lastAckedDeliveryIndex

/-- A terminal error with the cursors of the session. -/
def errorDelivery (s : StreamSession) (code message : String) : SessionDelivery :=
  .error ⟨some route.subscriptionId, ascii code, s.lastDeliveredCursor, s.lastAckedCursor,
    ascii message⟩

def slowConsumerError (s : StreamSession) : SessionDelivery :=
  s.errorDelivery route "slow_consumer" "delivery window full"

def receiptDecodeFailedError (s : StreamSession) : SessionDelivery :=
  s.errorDelivery route "receipt_decode_failed" "syncbat receipt event payload decode failed"

def malformedControlError (s : StreamSession) : SessionDelivery :=
  s.errorDelivery route "malformed_stream_frame" "malformed stream control frame"

def ackInvalidError (s : StreamSession) (reason : String) : SessionDelivery :=
  if reason = "ack cursor does not match sent cursor" ∨ reason = "ack delivery index out of range"
  then s.errorDelivery route "malformed_stream_frame" reason
  else s.errorDelivery route "cursor_invalid" reason

def cursorMismatchTerminal (s : StreamSession) (reason : String) : SessionDelivery :=
  s.errorDelivery route "cursor_mismatch" reason

def clientCancelEnd (s : StreamSession) : SessionDelivery :=
  .ended ⟨route.subscriptionId, ascii "client_cancelled", s.lastDeliveredCursor⟩

/-- The session ends and keeps the delivery for the next poll. -/
def endWith (s : StreamSession) (delivery : SessionDelivery) : StreamSession :=
  { s with phase := .ended, terminal := some delivery }

def sentCursor (s : StreamSession) (index : Nat) : Option RuntimeCursor :=
  s.sentCursors.lookup index

/-! ### Control inputs -/

/-- Only the receipt and entity sessions move their scan to the acknowledged cursor. -/
def applyAck (s : StreamSession) (index : Nat) (cursor : RuntimeCursor) : StreamSession :=
  if index = 0 ∨ s.lastSentDeliveryIndex < index then
    s.endWith (s.ackInvalidError route "ack delivery index out of range")
  else
    match StreamCursor.decode route.cursors.format cursor with
    | .error reason => s.endWith (s.ackInvalidError route reason)
    | .ok decoded =>
        match decoded.validateRoute route.cursors with
        | .error reason => s.endWith (s.cursorMismatchTerminal route reason)
        | .ok () =>
            match s.sentCursor index with
            | none => s.endWith (s.ackInvalidError route "ack delivery index has no sent cursor")
            | some expected =>
                if expected ≠ cursor then
                  s.endWith (s.ackInvalidError route "ack cursor does not match sent cursor")
                else if index < s.lastAckedDeliveryIndex then
                  s.endWith (s.ackInvalidError route "ack delivery index regressed")
                else
                  { s with
                    lastAckedDeliveryIndex := index
                    lastAckedCursor := some cursor
                    scanAfter :=
                      if route.source.scans then decoded.resumeAfterGlobalSequence
                      else s.scanAfter }

def applyControl (s : StreamSession) : SessionControl → StreamSession
  | .ack index cursor => s.applyAck route index cursor
  | .cancel => s.endWith (s.clientCancelEnd route)
  | .disconnected => { s with phase := .ended, terminal := none }
  | .malformed => s.endWith (s.malformedControlError route)

/-- Every pending input is taken, also those behind one that ends the session. -/
def drainControl (s : StreamSession) (inbox : List SessionControl) : StreamSession :=
  inbox.foldl (applyControl route) s

/-! ### Deliveries -/

/-- The bookkeeping of a delivery that leaves the session at a cursor. -/
def send (s : StreamSession) (cursorAfter : StreamCursor) : StreamSession :=
  { s with
    deliveryIndex := s.deliveryIndex + 1
    lastSentDeliveryIndex := s.deliveryIndex
    sentCursors := (s.deliveryIndex, route.runtimeCursor cursorAfter) :: s.sentCursors
    lastDeliveredCursor := some (route.runtimeCursor cursorAfter)
    cursorBeforeNext := cursorAfter }

def eventDelivery (s : StreamSession) (entry : StreamEntry) : SessionDelivery :=
  .event {
    subscriptionId := route.subscriptionId
    deliveryIndex := Fin.ofNat (2 ^ 64) s.deliveryIndex
    cursorBefore := route.runtimeCursor s.cursorBeforeNext
    cursorAfter := route.runtimeCursor
      (.afterGlobalSequence route.cursors entry.globalSequence entry.wallMs)
    wirePayloadSchemaRef := route.wirePayloadSchemaRef
    envelopeBytes := route.reader.envelope entry }

def watermarkDelivery (s : StreamSession) (point : FeedPoint) : SessionDelivery :=
  .watermark {
    subscriptionId := route.subscriptionId
    deliveryIndex := Fin.ofNat (2 ^ 64) s.deliveryIndex
    cursorAfter := route.runtimeCursor
      (.afterGlobalSequence route.cursors point.globalSequence point.wallMs) }

end StreamSession

/-- What one page comes to: a delivery, nothing in it to deliver, no page any more, or a read
of the store that fails and ends the connection. -/
inductive PageResult where
  | delivery (delivery : SessionDelivery)
  | passed
  | exhausted
  | failed
  deriving DecidableEq

section Pages

variable (route : StreamRoute) (unreadable : StreamEntry → Bool)

/-- The end of a session whose window is full. -/
def slowConsumer (s : StreamSession) : StreamSession × SessionDelivery :=
  (s.endWith (s.slowConsumerError route), s.slowConsumerError route)

/-- The delivery of an entry, or the end of a session whose window is full. A delivery leaves
the position at the entry, where the scanning sessions are already. -/
def deliverEntry (s : StreamSession) (entry : StreamEntry) : StreamSession × PageResult :=
  if route.queueCap ≤ s.inFlight then
    ((slowConsumer route s).1, .delivery (slowConsumer route s).2)
  else if unreadable entry then (s, .failed)
  else
    ({ s.send route (.afterGlobalSequence route.cursors entry.globalSequence entry.wallMs) with
        scanAfter := some entry.globalSequence },
      .delivery (s.eventDelivery route entry))

/-- Only the first entry of the page is taken. -/
def tryDeliverPage (feed : StoreFeed) (s : StreamSession) : StreamSession × PageResult :=
  match feed.queryEntriesAfter route.source.region s.scanAfter route.pageSize with
  | [] => (s, .exhausted)
  | entry :: _ => deliverEntry route unreadable s entry

/-- The position moves with every entry looked at. -/
def scanEntries : List StreamEntry → StreamSession → StreamSession × PageResult
  | [], s => (s, .passed)
  | entry :: rest, s =>
      let s := { s with scanAfter := some entry.globalSequence }
      if route.source.readsFirst && unreadable entry then (s, .failed)
      else
        match classify route.reader route.source entry with
        | .undecodable =>
            (s.endWith (s.receiptDecodeFailedError route),
              .delivery (s.receiptDecodeFailedError route))
        | .skip => scanEntries rest s
        | .deliver => deliverEntry route unreadable s entry

def tryDeliverMatching (feed : StoreFeed) (s : StreamSession) : StreamSession × PageResult :=
  match feed.queryEntriesAfter route.source.region s.scanAfter route.pageSize with
  | [] => ({ s with lastQueryReturnedEmpty := true }, .exhausted)
  | entry :: rest =>
      scanEntries route unreadable (entry :: rest) { s with lastQueryReturnedEmpty := false }

def tryDeliver (feed : StoreFeed) (s : StreamSession) : StreamSession × PageResult :=
  if route.source.scans then tryDeliverMatching route unreadable feed s
  else tryDeliverPage route unreadable feed s

/-- The frontier becomes the scan position and the cursor of the client. -/
def maybeEmitWatermark (frontier : FeedPoint) (s : StreamSession) :
    StreamSession × Option SessionDelivery :=
  if route.source.scans && !s.lastQueryReturnedEmpty then (s, none)
  else if frontier.globalSequence ≤ s.lastWatermarkedVisibleSeq then (s, none)
  else if route.queueCap ≤ s.inFlight then
    ((slowConsumer route s).1, some (slowConsumer route s).2)
  else
    ({ s.send route (.afterGlobalSequence route.cursors frontier.globalSequence frontier.wallMs)
        with
        lastWatermarkedVisibleSeq := frontier.globalSequence
        scanAfter := some frontier.globalSequence },
      some (s.watermarkDelivery route frontier))

end Pages

/-! ### Polls -/

/-- Where a poll stands. The flag tells the pass after a wake from the first one. -/
inductive PollStage where
  | idle
  | querying (woken : Bool)
  | readingFrontier (woken : Bool)
  | waiting
  | failed
  deriving Repr, DecidableEq

/-- A session with its poll, its control inputs and the deliveries sent to the client. -/
structure StreamMachine where
  feed : StoreFeed
  session : StreamSession
  inbox : List SessionControl
  stage : PollStage
  sent : List SessionDelivery

inductive StreamStep where
  | publish (entries : List StreamEntry) (last : StreamEntry)
  | settle
  | control (input : SessionControl)
  | poll
  | page (unreadable : StreamEntry → Bool)
  | frontier
  | wake (notified : Bool)
  | reconnect (resumeCursor : Option RuntimeCursor)

section Machine

variable (route : StreamRoute)

/-- The poll returns a delivery. -/
def StreamMachine.emit (m : StreamMachine) (delivery : SessionDelivery) : StreamMachine :=
  { m with stage := .idle, sent := m.sent ++ [delivery] }

/-- The checks of a poll around its control inputs: a kept delivery goes out first, and a
session that has ended stays so. -/
def StreamMachine.orEnded (m : StreamMachine) (next : StreamMachine → StreamMachine) :
    StreamMachine :=
  match m.session.terminal with
  | some delivery => { m with session.terminal := none }.emit delivery
  | none => if m.session.phase = .ended then { m with stage := .idle } else next m

/-- The control inputs of a session, then its page queries. -/
def takeControl (woken : Bool) (m : StreamMachine) : StreamMachine :=
  { m with session := m.session.drainControl route m.inbox, inbox := [] }.orEnded fun m =>
    { m with stage := .querying woken }

/-- A poll behind one page query. -/
def afterPage (woken : Bool) (m : StreamMachine) (page : StreamSession × PageResult) :
    StreamMachine :=
  let m := { m with session := page.1 }
  match page.2 with
  | .delivery delivery => m.emit delivery
  | .passed => m
  | .failed => { m with stage := .failed }
  | .exhausted =>
      if woken || m.session.phase = .replaying then { m with stage := .readingFrontier woken }
      else { m with stage := .waiting }

def pageStep (unreadable : StreamEntry → Bool) (woken : Bool) (m : StreamMachine) :
    StreamMachine :=
  afterPage woken m (tryDeliver route unreadable m.feed m.session)

/-- The first pass makes the session live, with or without a watermark. -/
def afterFirstPass (woken : Bool) (s : StreamSession) : StreamSession :=
  if woken then s else { s with phase := .live }

/-- A poll behind its read of the frontier. -/
def afterFrontier (woken : Bool) (m : StreamMachine)
    (read : StreamSession × Option SessionDelivery) : StreamMachine :=
  let m := { m with session := afterFirstPass woken read.1 }
  match read.2 with
  | some delivery => m.emit delivery
  | none => { m with stage := if woken then .idle else .waiting }

def frontierStep (woken : Bool) (m : StreamMachine) : StreamMachine :=
  afterFrontier woken m (maybeEmitWatermark route m.feed.frontier m.session)

/-- A new session for the same client, on the same store. -/
def reconnectStep (resumeCursor : Option RuntimeCursor) (m : StreamMachine) : StreamMachine :=
  match route.openSession resumeCursor with
  | .ok session => { m with session, inbox := [], stage := .idle }
  | .error _ => { m with stage := .failed }

/-- A step that the stage does not allow changes nothing. -/
def streamStep (m : StreamMachine) : StreamStep → StreamMachine
  | .publish entries last => { m with feed := m.feed.publish entries last }
  | .settle => { m with feed := m.feed.settle }
  | .control input => { m with inbox := m.inbox ++ [input] }
  | .poll =>
      match m.stage with
      | .idle => m.orEnded (takeControl route false)
      | _ => m
  | .page unreadable =>
      match m.stage with
      | .querying woken => pageStep route unreadable woken m
      | _ => m
  | .frontier =>
      match m.stage with
      | .readingFrontier woken => frontierStep route woken m
      | _ => m
  | .wake notified =>
      match m.stage with
      | .waiting => if notified then takeControl route true m else { m with stage := .idle }
      | _ => m
  | .reconnect resumeCursor => reconnectStep route resumeCursor m

/-- A client that subscribes for the first time. -/
def StreamMachine.start (feed : StoreFeed) (session : StreamSession) : StreamMachine :=
  ⟨feed, session, [], .idle, []⟩

/-! ### Passes over one store -/

/-- Page queries until the pass is over, on the store as it stands. -/
def passSteps : Nat → StreamMachine → StreamMachine
  | 0, m => m
  | fuel + 1, m =>
      match m.stage with
      | .querying woken => passSteps fuel (pageStep route (fun _ => false) woken m)
      | _ => m

/-- The steps of a session whose reads succeed, with the page queries of a pass taken together:
the entries that become visible between them are found by the last one. -/
inductive SessionStep where
  | publish (entries : List StreamEntry) (last : StreamEntry)
  | settle
  | control (input : SessionControl)
  | poll
  | pass
  | frontier
  | wake (notified : Bool)

def SessionStep.isControl : SessionStep → Bool
  | .control _ => true
  | _ => false

/-- Every page query that finds an entry leaves it behind. -/
def sessionStep (m : StreamMachine) : SessionStep → StreamMachine
  | .publish entries last => streamStep route m (.publish entries last)
  | .settle => streamStep route m .settle
  | .control input => streamStep route m (.control input)
  | .poll => streamStep route m .poll
  | .pass => passSteps route (m.feed.visible.length + 1) m
  | .frontier => streamStep route m .frontier
  | .wake notified => streamStep route m (.wake notified)

end Machine

end Batpak.Syncbat
