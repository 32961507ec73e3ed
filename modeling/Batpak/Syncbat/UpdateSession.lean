/-
Module: Batpak.Syncbat.UpdateSession
Purpose: Projection and operation-status subscriptions: their cursors, and a session that
  delivers the updates of a watcher instead of reading the store.
Trusted boundary: the hashes of a route are data; encoding an envelope is a function that may
  fail; what the watcher bridge hands over is an input
Main exports: GenerationCursor, UpdateSource
-/
import Batpak.Syncbat.StreamCursor

namespace Batpak.Syncbat

open Batpak.Util

/-! ### Cursors -/

/-- What the two sources do not share. -/
inductive UpdateSource where
  | projection
  | operationStatus
  deriving Repr, DecidableEq

namespace UpdateSource

def sourceKind : UpdateSource → UInt8
  | .projection => 0x02
  | .operationStatus => 0x03

/-- The reason given for a cursor of another projection, or of another operation. -/
def subjectReason : UpdateSource → String
  | .projection => "cursor projection id hash mismatch"
  | .operationStatus => "cursor operation hash mismatch"

def bridgeDisconnected : UpdateSource → String
  | .projection => "projection watcher bridge disconnected"
  | .operationStatus => "operation-status watcher bridge disconnected"

end UpdateSource

inductive GenerationPosition where
  | beginning
  | afterEntityGeneration (generation : U64)
  deriving Repr, DecidableEq

structure GenerationCursor where
  subscriptionIdHash : Bytes
  subjectHash : Bytes
  entityHash : Bytes
  entityGeneration : U64
  position : GenerationPosition
  deriving Repr, DecidableEq

/-- The hashes of a route. -/
structure GenerationBinding where
  subscriptionIdHash : Bytes
  subjectHash : Bytes
  entityHash : Bytes
  subscriptionSized : subscriptionIdHash.length = 16
  subjectSized : subjectHash.length = 16
  entitySized : entityHash.length = 8

namespace GenerationCursor

def beginning (binding : GenerationBinding) : GenerationCursor :=
  ⟨binding.subscriptionIdHash, binding.subjectHash, binding.entityHash, 0, .beginning⟩

def afterEntityGeneration (binding : GenerationBinding) (generation : U64) : GenerationCursor :=
  ⟨binding.subscriptionIdHash, binding.subjectHash, binding.entityHash, generation,
    .afterEntityGeneration generation⟩

def resumeAfterEntityGeneration (cursor : GenerationCursor) : Option U64 :=
  match cursor.position with
  | .beginning => none
  | .afterEntityGeneration generation => some generation

def positionByte : GenerationPosition → UInt8
  | .beginning => 0x00
  | .afterEntityGeneration _ => 0x02

def encode (source : UpdateSource) (cursor : GenerationCursor) : Bytes :=
  cursorMagic ++
    ([cursorVersion, source.sourceKind, positionByte cursor.position, 0x00] ++
      (cursor.subscriptionIdHash ++ (cursor.subjectHash ++
        (cursor.entityHash ++ toBeBytes 8 cursor.entityGeneration.val))))

def decodePosition (kind : UInt8) (generation : U64) : Except String GenerationPosition :=
  if kind = 0x00 then
    if generation ≠ 0 then .error "beginning cursor has nonzero entity generation"
    else .ok .beginning
  else if kind = 0x02 then .ok (.afterEntityGeneration generation)
  else .error "cursor position kind is invalid"

def decode (source : UpdateSource) (bytes : Bytes) : Except String GenerationCursor :=
  if bytes.length ≠ 56 then .error "cursor length is not 56 bytes"
  else if bytes.take 4 ≠ cursorMagic then .error "cursor magic mismatch"
  else if bytes[4]? ≠ some cursorVersion then .error "cursor version mismatch"
  else if bytes[5]? ≠ some source.sourceKind then .error "cursor source kind mismatch"
  else if bytes[7]? ≠ some 0x00 then .error "cursor reserved byte is nonzero"
  else do
    let generation := StreamCursor.readU64Be bytes 48
    let position ← decodePosition (bytes[6]?.getD 0) generation
    return ⟨(bytes.drop 8).take 16, (bytes.drop 24).take 16, (bytes.drop 40).take 8, generation,
      position⟩

def validateRoute (source : UpdateSource) (binding : GenerationBinding)
    (cursor : GenerationCursor) : Except String Unit :=
  if cursor.subscriptionIdHash ≠ binding.subscriptionIdHash then
    .error "cursor subscription id hash mismatch"
  else if cursor.subjectHash ≠ binding.subjectHash then .error source.subjectReason
  else if cursor.entityHash ≠ binding.entityHash then .error "cursor entity hash mismatch"
  else .ok ()

/-- The cursors that the constructors of a route build. -/
structure OfBinding (binding : GenerationBinding) (cursor : GenerationCursor) : Prop where
  subscription : cursor.subscriptionIdHash = binding.subscriptionIdHash
  subject : cursor.subjectHash = binding.subjectHash
  entity : cursor.entityHash = binding.entityHash
  position : decodePosition (positionByte cursor.position) cursor.entityGeneration =
    .ok cursor.position

theorem ofBinding_afterEntityGeneration (binding : GenerationBinding) (generation : U64) :
    OfBinding binding (afterEntityGeneration binding generation) :=
  ⟨rfl, rfl, rfl, rfl⟩

theorem ofBinding_validateRoute {source : UpdateSource} {binding : GenerationBinding}
    {cursor : GenerationCursor} (h : OfBinding binding cursor) :
    validateRoute source binding cursor = .ok () := by
  simp [validateRoute, h.subscription, h.subject, h.entity]

theorem decode_encode {source : UpdateSource} {binding : GenerationBinding}
    {cursor : GenerationCursor} (h : OfBinding binding cursor) :
    decode source (encode source cursor) = .ok cursor := by
  have hsubscription : cursor.subscriptionIdHash.length = 16 := by
    rw [h.subscription, binding.subscriptionSized]
  have hsubject : cursor.subjectHash.length = 16 := by rw [h.subject, binding.subjectSized]
  have hentity : cursor.entityHash.length = 8 := by rw [h.entity, binding.entitySized]
  have heq : encode source cursor =
      66 :: 80 :: 83 :: 67 :: cursorVersion :: source.sourceKind ::
        positionByte cursor.position :: 0x00 :: (cursor.subscriptionIdHash ++
          (cursor.subjectHash ++ (cursor.entityHash ++
            toBeBytes 8 cursor.entityGeneration.val))) :=
    rfl
  have hlength : (encode source cursor).length = 56 := by
    simp [heq, hsubscription, hsubject, hentity]
  have hdrop8 : (encode source cursor).drop 8 = cursor.subscriptionIdHash ++
      (cursor.subjectHash ++ (cursor.entityHash ++ toBeBytes 8 cursor.entityGeneration.val)) :=
    rfl
  have hdrop24 : (encode source cursor).drop 24 =
      cursor.subjectHash ++ (cursor.entityHash ++ toBeBytes 8 cursor.entityGeneration.val) := by
    change List.drop (8 + 16) _ = _
    rw [← List.drop_drop, hdrop8, List.drop_left' hsubscription]
  have hdrop40 : (encode source cursor).drop 40 =
      cursor.entityHash ++ toBeBytes 8 cursor.entityGeneration.val := by
    change List.drop (24 + 16) _ = _
    rw [← List.drop_drop, hdrop24, List.drop_left' hsubject]
  have hgeneration : StreamCursor.readU64Be (encode source cursor) 48 =
      cursor.entityGeneration := by
    unfold StreamCursor.readU64Be
    change Fin.ofNat _ (ofBeBytes ((List.drop (40 + 8) _).take 8)) = _
    rw [← List.drop_drop, hdrop40, List.drop_left' hentity,
      List.take_of_length_le (le_of_eq (length_toBeBytes _ _))]
    exact StreamCursor.ofNat_ofBeBytes cursor.entityGeneration
  have hmagic : (encode source cursor).take 4 = cursorMagic := rfl
  have hversion : (encode source cursor)[4]? = some cursorVersion := rfl
  have hsource : (encode source cursor)[5]? = some source.sourceKind := rfl
  have hposition : (encode source cursor)[6]? = some (positionByte cursor.position) := rfl
  have hreserved : (encode source cursor)[7]? = some 0x00 := rfl
  unfold decode
  simp only [hlength, hmagic, hversion, hsource, hposition, hreserved, hgeneration, hdrop8,
    hdrop24, hdrop40, List.take_left' hsubscription, List.take_left' hsubject,
    List.take_left' hentity, ne_eq, not_true_eq_false, if_false, Option.getD_some, h.position]
  rfl

end GenerationCursor

/-! ### Sessions -/

/-- A route with the window of the session; the open refuses a window of zero. -/
structure UpdateRoute (T : Type) where
  subscriptionId : Bytes
  source : UpdateSource
  binding : GenerationBinding
  wirePayloadSchemaRef : Bytes
  queueCap : Nat
  envelope : U64 → T → Option Bytes
  capPos : 0 < queueCap

structure UpdateSession where
  ended : Bool
  resumeAfterGeneration : U64
  cursorBeforeNext : GenerationCursor
  deliveryIndex : Nat
  lastSentDeliveryIndex : Nat
  lastAckedDeliveryIndex : Nat
  lastDeliveredCursor : Option RuntimeCursor
  lastAckedCursor : Option RuntimeCursor
  sentCursors : List (Nat × RuntimeCursor)
  terminal : Option SessionDelivery
  deriving DecidableEq

variable {T : Type} (route : UpdateRoute T)

namespace UpdateRoute

def runtimeCursor (cursor : GenerationCursor) : RuntimeCursor :=
  cursor.encode route.source

def parseResumeCursor : Option RuntimeCursor → Except String GenerationCursor
  | none => .ok (.beginning route.binding)
  | some bytes => do
      let cursor ← GenerationCursor.decode route.source bytes
      GenerationCursor.validateRoute route.source route.binding cursor
      return cursor

def openSession (resumeCursor : Option RuntimeCursor) : Except String UpdateSession := do
  let parsed ← route.parseResumeCursor resumeCursor
  return {
    ended := false
    resumeAfterGeneration := parsed.resumeAfterEntityGeneration.getD 0
    cursorBeforeNext := parsed
    deliveryIndex := 1
    lastSentDeliveryIndex := 0
    lastAckedDeliveryIndex := 0
    lastDeliveredCursor := none
    lastAckedCursor := none
    sentCursors := []
    terminal := none }

end UpdateRoute

namespace UpdateSession

def inFlight (s : UpdateSession) : Nat :=
  s.lastSentDeliveryIndex - s.lastAckedDeliveryIndex

/-- A terminal error with the cursors of the session. -/
def errorDelivery (s : UpdateSession) (code message : String) : SessionDelivery :=
  .error ⟨some route.subscriptionId, ascii code, s.lastDeliveredCursor, s.lastAckedCursor,
    ascii message⟩

def slowConsumerError (s : UpdateSession) : SessionDelivery :=
  s.errorDelivery route "slow_consumer" "delivery window full"

def malformedControlError (s : UpdateSession) : SessionDelivery :=
  s.errorDelivery route "malformed_stream_frame" "malformed stream control frame"

def ackInvalidError (s : UpdateSession) (reason : String) : SessionDelivery :=
  if reason = "ack cursor does not match sent cursor" ∨ reason = "ack delivery index out of range"
  then s.errorDelivery route "malformed_stream_frame" reason
  else s.errorDelivery route "cursor_invalid" reason

def clientCancelEnd (s : UpdateSession) : SessionDelivery :=
  .ended ⟨route.subscriptionId, ascii "client_cancelled", s.lastDeliveredCursor⟩

/-- The session ends and keeps the delivery for the next poll. -/
def endWith (s : UpdateSession) (delivery : SessionDelivery) : UpdateSession :=
  { s with ended := true, terminal := some delivery }

def applyAck (s : UpdateSession) (index : Nat) (cursor : RuntimeCursor) : UpdateSession :=
  if index = 0 ∨ s.lastSentDeliveryIndex < index then
    s.endWith (s.ackInvalidError route "ack delivery index out of range")
  else
    match GenerationCursor.decode route.source cursor with
    | .error reason => s.endWith (s.ackInvalidError route reason)
    | .ok decoded =>
        match decoded.validateRoute route.source route.binding with
        | .error reason => s.endWith (s.errorDelivery route "cursor_mismatch" reason)
        | .ok () =>
            match s.sentCursors.lookup index with
            | none => s.endWith (s.ackInvalidError route "ack delivery index has no sent cursor")
            | some expected =>
                if expected ≠ cursor then
                  s.endWith (s.ackInvalidError route "ack cursor does not match sent cursor")
                else if index < s.lastAckedDeliveryIndex then
                  s.endWith (s.ackInvalidError route "ack delivery index regressed")
                else { s with lastAckedDeliveryIndex := index, lastAckedCursor := some cursor }

def applyControl (s : UpdateSession) : SessionControl → UpdateSession
  | .ack index cursor => s.applyAck route index cursor
  | .cancel => s.endWith (s.clientCancelEnd route)
  | .disconnected => { s with ended := true, terminal := none }
  | .malformed => s.endWith (s.malformedControlError route)

/-- Every pending input is taken, also those behind one that ends the session. -/
def drainControl (s : UpdateSession) (inbox : List SessionControl) : UpdateSession :=
  inbox.foldl (applyControl route) s

/-- The bookkeeping of an update, which comes before its envelope is encoded. -/
def advance (s : UpdateSession) (generation : U64) : UpdateSession :=
  let cursorAfter := GenerationCursor.afterEntityGeneration route.binding generation
  { s with
    deliveryIndex := s.deliveryIndex + 1
    lastSentDeliveryIndex := s.deliveryIndex
    sentCursors := (s.deliveryIndex, route.runtimeCursor cursorAfter) :: s.sentCursors
    lastDeliveredCursor := some (route.runtimeCursor cursorAfter)
    cursorBeforeNext := cursorAfter
    resumeAfterGeneration := generation }

/-- The delivery of a state, or of the word that there is none. -/
def updateDelivery (s : UpdateSession) (generation : U64) : Option T → Option SessionDelivery
  | some projected =>
      (route.envelope generation projected).map fun envelopeBytes =>
        .event {
          subscriptionId := route.subscriptionId
          deliveryIndex := Fin.ofNat (2 ^ 64) s.deliveryIndex
          cursorBefore := route.runtimeCursor s.cursorBeforeNext
          cursorAfter := route.runtimeCursor (.afterEntityGeneration route.binding generation)
          wirePayloadSchemaRef := route.wirePayloadSchemaRef
          envelopeBytes }
  | none =>
      some (.watermark {
        subscriptionId := route.subscriptionId
        deliveryIndex := Fin.ofNat (2 ^ 64) s.deliveryIndex
        cursorAfter := route.runtimeCursor (.afterEntityGeneration route.binding generation) })

/-- No delivery when the envelope does not encode. -/
def deliverUpdate (s : UpdateSession) (generation : U64) (state : Option T) :
    UpdateSession × Option SessionDelivery :=
  if route.queueCap ≤ s.inFlight then
    (s.endWith (s.slowConsumerError route), some (s.slowConsumerError route))
  else (s.advance route generation, s.updateDelivery route generation state)

end UpdateSession

/-! ### Polls -/

/-- What the watcher bridge hands to a poll that waits. -/
inductive WatcherUpdate (T : Type) where
  | update (generation : U64) (state : Option T)
  | failed (message : String)
  | timeout
  | disconnected

inductive UpdateStage (T : Type) where
  | idle
  | receiving
  | delivering (generation : U64) (state : Option T)
  | failed

structure UpdateMachine (T : Type) where
  session : UpdateSession
  inbox : List SessionControl
  stage : UpdateStage T
  sent : List SessionDelivery

inductive UpdateStep (T : Type) where
  | control (input : SessionControl)
  | poll
  | receive (update : WatcherUpdate T)
  | deliver

namespace UpdateMachine

variable (m : UpdateMachine T)

def start (session : UpdateSession) : UpdateMachine T :=
  ⟨session, [], .idle, []⟩

/-- The poll returns a delivery. -/
def emit (delivery : SessionDelivery) : UpdateMachine T :=
  { m with stage := .idle, sent := m.sent ++ [delivery] }

/-- A kept delivery goes out first, and a session that has ended stays so. -/
def orEnded (next : UpdateMachine T → UpdateMachine T) : UpdateMachine T :=
  match m.session.terminal with
  | some delivery => { m with session.terminal := none }.emit delivery
  | none => if m.session.ended then { m with stage := .idle } else next m

/-- The control inputs of a session, then what the poll is up to. -/
def takeControl (stage : UpdateStage T) : UpdateMachine T :=
  { m with session := m.session.drainControl route m.inbox, inbox := [] }.orEnded fun m =>
    { m with stage }

/-- The watcher ends the session: the delivery is kept and returned. -/
def watcherEnd (message : String) : UpdateMachine T :=
  let terminal := m.session.errorDelivery route "cursor_invalid" message
  { m with session := m.session.endWith terminal }.emit terminal

/-- An update that the client has seen is passed over before the control inputs are taken. -/
def receive : WatcherUpdate T → UpdateMachine T
  | .update generation state =>
      if generation ≤ m.session.resumeAfterGeneration then { m with stage := .idle }
      else m.takeControl route (.delivering generation state)
  | .failed message => m.watcherEnd route message
  | .timeout => { m with stage := .idle }
  | .disconnected => m.watcherEnd route route.source.bridgeDisconnected

def deliver (generation : U64) (state : Option T) : UpdateMachine T :=
  let delivered := m.session.deliverUpdate route generation state
  let m := { m with session := delivered.1 }
  match delivered.2 with
  | some delivery => m.emit delivery
  | none => { m with stage := .failed }

end UpdateMachine

/-- A step that the stage does not allow changes nothing. -/
def updateStep (m : UpdateMachine T) : UpdateStep T → UpdateMachine T
  | .control input => { m with inbox := m.inbox ++ [input] }
  | .poll =>
      match m.stage with
      | .idle => m.orEnded fun m => m.takeControl route .receiving
      | _ => m
  | .receive update =>
      match m.stage with
      | .receiving => m.receive route update
      | _ => m
  | .deliver =>
      match m.stage with
      | .delivering generation state => m.deliver route generation state
      | _ => m

end Batpak.Syncbat
