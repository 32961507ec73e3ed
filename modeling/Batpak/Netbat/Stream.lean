/-
Module: Batpak.Netbat.Stream
Purpose: The frames of the streaming protocol: validated tokens, the decoder of a line and the
  encoder of a frame.
Trusted boundary: none
Main exports: SubscriptionToken, StreamReasonCode
-/
import Batpak.Netbat.Line

namespace Batpak.Netbat

open Batpak.Util

/-! ### Grammars -/

/-- A byte of `[a-z0-9._-]`. -/
def isTokenByte (b : UInt8) : Bool :=
  isLower b || isDigit b || isPunctuation b

/-- Split at the last `.v`: the name before it and the version after it. -/
def splitVersion : Bytes → Option (Bytes × Bytes)
  | a :: b :: rest =>
      match splitVersion (b :: rest) with
      | some (name, version) => some (a :: name, version)
      | none => if a = dot && b = 118 then some ([], rest) else none
  | _ => none

/-- `^[a-z0-9][a-z0-9._-]*\.v[1-9][0-9]*$` with length and dot rules. -/
def validateSubscriptionId (id : Bytes) : Except String Unit :=
  if id.isEmpty then .error "empty subscription id"
  else if 128 < id.length then .error "subscription id longer than 128 bytes"
  else if id.head? = some dot ∨ id.getLast? = some dot then
    .error "subscription id has a leading or trailing '.'"
  else if hasDoubleDot id then .error "subscription id has a doubled '.'"
  else
    match splitVersion id with
    | none => .error "subscription id must contain a .v version suffix"
    | some (name, version) =>
        if name.isEmpty then .error "subscription id name prefix is empty"
        else if !(name.head?.any fun b => isLower b || isDigit b) then
          .error "subscription id must start with [a-z0-9]"
        else if !name.all isTokenByte then
          .error "subscription id has characters outside [a-z0-9._-]"
        else if version.isEmpty then .error "subscription id missing version digits after .v"
        else if !(version.head?.any fun b => isDigit b && b ≠ 48) then
          .error "subscription id version must start with 1-9"
        else if !version.all isDigit then
          .error "subscription id version must be digits only"
        else .ok ()

def validateReasonCode (code : Bytes) : Except String Unit :=
  if code.isEmpty then .error "empty reason code"
  else if 128 < code.length then .error "reason code longer than 128 bytes"
  else if !code.all isTokenByte then .error "reason code has characters outside [a-z0-9._-]"
  else .ok ()

/-- A text starts with a character that Unicode counts as white space. -/
def startsWithWhitespace : Bytes → Bool
  | 0xc2 :: b :: _ => b = 0x85 || b = 0xa0
  | 0xe1 :: 0x9a :: b :: _ => b = 0x80
  | 0xe2 :: 0x80 :: b :: _ => (0x80 ≤ b && b ≤ 0x8a) || b = 0xa8 || b = 0xa9 || b = 0xaf
  | 0xe2 :: 0x81 :: b :: _ => b = 0x9f
  | 0xe3 :: 0x80 :: b :: _ => b = 0x80
  | b :: _ => (9 ≤ b && b ≤ 13) || b = 32
  | [] => false

def containsWhitespace : Bytes → Bool
  | [] => false
  | b :: rest => startsWithWhitespace (b :: rest) || containsWhitespace rest

def validatePayloadSchemaRef (reference : Bytes) : Except String Unit :=
  if reference.isEmpty then .error "empty payload schema ref"
  else if 256 < reference.length then .error "payload schema ref longer than 256 bytes"
  else if containsWhitespace reference then .error "payload schema ref contains whitespace"
  else if !reference.all isTokenByte then
    .error "payload schema ref has characters outside [a-z0-9._-]"
  else .ok ()

/-! ### Tokens -/

/-- A text that passed its grammar. -/
structure Token (validate : Bytes → Except String Unit) where
  text : Bytes
  valid : validate text = .ok ()
  deriving DecidableEq

def Token.new (validate : Bytes → Except String Unit) (text : Bytes) :
    Except NetbatError (Token validate) :=
  match h : validate text with
  | .ok () => .ok ⟨text, h⟩
  | .error reason => .error (.malformedStreamFrame reason)

abbrev SubscriptionToken := Token validateSubscriptionId

abbrev StreamReasonCode := Token validateReasonCode

abbrev PayloadSchemaRef := Token validatePayloadSchemaRef

def SubscriptionToken.new (id : Bytes) (limits : Limits) : Except NetbatError SubscriptionToken :=
  if limits.maxSubscriptionIdBytes < id.length then
    .error (.subscriptionIdTooLong limits.maxSubscriptionIdBytes)
  else Token.new validateSubscriptionId id

def StreamReasonCode.new (code : Bytes) : Except NetbatError StreamReasonCode :=
  Token.new validateReasonCode code

def PayloadSchemaRef.new (reference : Bytes) : Except NetbatError PayloadSchemaRef :=
  Token.new validatePayloadSchemaRef reference

/-- A number of a fixed width that is not zero. -/
structure Counter (bound : Nat) where
  value : Nat
  pos : 0 < value
  lt : value < bound
  deriving DecidableEq

abbrev DeliveryIndex := Counter (2 ^ 64)

abbrev ClientWindow := Counter (2 ^ 32)

def Counter.new {bound : Nat} (value : Fin bound) (zero : String) :
    Except NetbatError (Counter bound) :=
  if h : 0 < value.val then .ok ⟨value.val, h, value.isLt⟩
  else .error (.malformedStreamFrame zero)

def DeliveryIndex.new (value : Fin (2 ^ 64)) : Except NetbatError DeliveryIndex :=
  Counter.new value "delivery index must be nonzero"

def ClientWindow.new (value : Fin (2 ^ 32)) : Except NetbatError ClientWindow :=
  Counter.new value "client window must be nonzero"

abbrev CursorBytes := Bytes

/-- An absent cursor is a dash on the wire. -/
inductive MaybeCursor where
  | absent
  | present (cursor : CursorBytes)
  deriving Repr, Inhabited, DecidableEq

def MaybeCursor.encodeToken : MaybeCursor → Bytes
  | .absent => [45]
  | .present cursor => encodeHex cursor

/-! ### Frames -/

structure SubscribeFrame where
  subscriptionId : SubscriptionToken
  resumeCursor : MaybeCursor
  clientWindow : ClientWindow
  deriving DecidableEq

structure SubEventFrame where
  subscriptionId : SubscriptionToken
  deliveryIndex : DeliveryIndex
  cursorBefore : MaybeCursor
  cursorAfter : MaybeCursor
  payloadSchemaRef : PayloadSchemaRef
  payload : Bytes
  deriving DecidableEq

structure SubWatermarkFrame where
  subscriptionId : SubscriptionToken
  deliveryIndex : DeliveryIndex
  cursorAfter : CursorBytes
  deriving DecidableEq

structure SubAckFrame where
  subscriptionId : SubscriptionToken
  deliveryIndex : DeliveryIndex
  cursorAfter : CursorBytes
  deriving DecidableEq

structure SubCancelFrame where
  subscriptionId : SubscriptionToken
  reasonCode : StreamReasonCode
  deriving DecidableEq

structure SubErrFrame where
  subscriptionId : SubscriptionToken
  code : StreamReasonCode
  lastDeliveredCursor : MaybeCursor
  lastAckedCursor : MaybeCursor
  message : Bytes
  deriving DecidableEq

structure SubEndFrame where
  subscriptionId : SubscriptionToken
  cursorAfter : MaybeCursor
  reasonCode : StreamReasonCode
  deriving DecidableEq

inductive StreamFrame where
  | subscribe (frame : SubscribeFrame)
  | subEvent (frame : SubEventFrame)
  | subWatermark (frame : SubWatermarkFrame)
  | subAck (frame : SubAckFrame)
  | subCancel (frame : SubCancelFrame)
  | subErr (frame : SubErrFrame)
  | subEnd (frame : SubEndFrame)
  deriving DecidableEq

def streamProtocolVersion : Bytes := ascii "NETBAT/2"

def subscribeVerb : Bytes := ascii "SUBSCRIBE"

def subEventVerb : Bytes := ascii "SUB_EVENT"

def subWatermarkVerb : Bytes := ascii "SUB_WATERMARK"

def subAckVerb : Bytes := ascii "SUB_ACK"

def subCancelVerb : Bytes := ascii "SUB_CANCEL"

def subErrVerb : Bytes := ascii "SUB_ERR"

def subEndVerb : Bytes := ascii "SUB_END"

/-! ### Encoding -/

/-- The verb and the fields of a frame. -/
def frameTokens : StreamFrame → List Bytes
  | .subscribe f =>
      [subscribeVerb, f.subscriptionId.text, f.resumeCursor.encodeToken,
        toDecimal f.clientWindow.value]
  | .subEvent f =>
      [subEventVerb, f.subscriptionId.text, toDecimal f.deliveryIndex.value,
        f.cursorBefore.encodeToken, f.cursorAfter.encodeToken, f.payloadSchemaRef.text,
        encodeHex f.payload]
  | .subWatermark f =>
      [subWatermarkVerb, f.subscriptionId.text, toDecimal f.deliveryIndex.value,
        encodeHex f.cursorAfter]
  | .subAck f =>
      [subAckVerb, f.subscriptionId.text, toDecimal f.deliveryIndex.value,
        encodeHex f.cursorAfter]
  | .subCancel f => [subCancelVerb, f.subscriptionId.text, f.reasonCode.text]
  | .subErr f =>
      [subErrVerb, f.subscriptionId.text, f.code.text, f.lastDeliveredCursor.encodeToken,
        f.lastAckedCursor.encodeToken, encodeHex f.message]
  | .subEnd f =>
      [subEndVerb, f.subscriptionId.text, f.cursorAfter.encodeToken, f.reasonCode.text]

def encodeStreamFrame (frame : StreamFrame) : Bytes :=
  joinTokens (streamProtocolVersion :: frameTokens frame) ++ [newline]

/-! ### Decoding -/

def nextToken (missing : String) : Parts Bytes :=
  nextPart (.malformedStreamFrame missing)

/-- The size error of the field in place of the one of an input. -/
def decodeStreamHex (token : Bytes) (maxBytes : Nat) (tooLarge : Nat → NetbatError) :
    Except NetbatError Bytes :=
  match decodeHex token maxBytes with
  | .ok bytes => .ok bytes
  | .error (.inputTooLarge max) => .error (tooLarge max)
  | .error (.malformedRequest reason) => .error (.malformedStreamFrame reason)
  | .error error => .error error

def decodeRequiredCursor (token : Bytes) (limits : Limits) : Except NetbatError CursorBytes :=
  decodeStreamHex token limits.maxCursorBytes .cursorTooLarge

def decodeMaybeCursor (token : Bytes) (limits : Limits) : Except NetbatError MaybeCursor :=
  if token = [45] then .ok .absent
  else do
    let cursor ← decodeRequiredCursor token limits
    return .present cursor

def nextMaybeCursor (limits : Limits) (missing : String) : Parts MaybeCursor := do
  let token ← nextToken missing
  decodeMaybeCursor token limits

def parseUtf8 (token : Bytes) : Except NetbatError Bytes :=
  if validUtf8 token then .ok token else .error (.malformedStreamFrame "token is not utf-8")

def parseInteger (bound : Nat) (token : Bytes) : Except NetbatError (Fin bound) := do
  let text ← parseUtf8 token
  match parseUnsigned bound text with
  | some value =>
      if h : value < bound then .ok ⟨value, h⟩
      else .error (.malformedStreamFrame "integer field is not decimal")
  | none => .error (.malformedStreamFrame "integer field is not decimal")

def parseU64 (token : Bytes) : Except NetbatError (Fin (2 ^ 64)) :=
  parseInteger (2 ^ 64) token

def parseU32 (token : Bytes) : Except NetbatError (Fin (2 ^ 32)) :=
  parseInteger (2 ^ 32) token

def subscriptionField (token : Bytes) (limits : Limits) : Except NetbatError SubscriptionToken := do
  let text ← parseUtf8 token
  SubscriptionToken.new text limits

def reasonField (token : Bytes) : Except NetbatError StreamReasonCode := do
  let text ← parseUtf8 token
  StreamReasonCode.new text

def deliveryField (token : Bytes) : Except NetbatError DeliveryIndex := do
  let value ← parseU64 token
  DeliveryIndex.new value

def decodeSubscribe (limits : Limits) : Parts SubscribeFrame := do
  let subscriptionId ← nextToken "missing subscription id"
  let resume ← nextMaybeCursor limits "missing resume cursor"
  let window ← nextToken "missing client window"
  let subscriptionId ← subscriptionField subscriptionId limits
  let value ← parseU32 window
  let clientWindow ← ClientWindow.new value
  return ⟨subscriptionId, resume, clientWindow⟩

def decodeSubEvent (limits : Limits) : Parts SubEventFrame := do
  let subscriptionId ← nextToken "missing subscription id"
  let deliveryIndex ← nextToken "missing delivery index"
  let cursorBefore ← nextMaybeCursor limits "missing cursor_before"
  let cursorAfter ← nextMaybeCursor limits "missing cursor_after"
  let payloadSchemaRef ← nextToken "missing payload schema ref"
  let payloadHex ← nextToken "missing payload hex"
  let subscriptionId ← subscriptionField subscriptionId limits
  let deliveryIndex ← deliveryField deliveryIndex
  let reference ← parseUtf8 payloadSchemaRef
  let payloadSchemaRef ← PayloadSchemaRef.new reference
  let payload ← decodeStreamHex payloadHex limits.maxStreamPayloadBytes .streamPayloadTooLarge
  return ⟨subscriptionId, deliveryIndex, cursorBefore, cursorAfter, payloadSchemaRef, payload⟩

/-- The three fields of a watermark and of an acknowledgement. -/
def decodeProgress (limits : Limits) : Parts (SubscriptionToken × DeliveryIndex × CursorBytes) := do
  let subscriptionId ← nextToken "missing subscription id"
  let deliveryIndex ← nextToken "missing delivery index"
  let cursorAfter ← nextToken "missing cursor_after"
  let subscriptionId ← subscriptionField subscriptionId limits
  let deliveryIndex ← deliveryField deliveryIndex
  let cursorAfter ← decodeRequiredCursor cursorAfter limits
  return (subscriptionId, deliveryIndex, cursorAfter)

def decodeSubWatermark (limits : Limits) : Parts SubWatermarkFrame := do
  let (subscriptionId, deliveryIndex, cursorAfter) ← decodeProgress limits
  return ⟨subscriptionId, deliveryIndex, cursorAfter⟩

def decodeSubAck (limits : Limits) : Parts SubAckFrame := do
  let (subscriptionId, deliveryIndex, cursorAfter) ← decodeProgress limits
  return ⟨subscriptionId, deliveryIndex, cursorAfter⟩

def decodeSubCancel (limits : Limits) : Parts SubCancelFrame := do
  let subscriptionId ← nextToken "missing subscription id"
  let reasonCode ← nextToken "missing reason code"
  let subscriptionId ← subscriptionField subscriptionId limits
  let reasonCode ← reasonField reasonCode
  return ⟨subscriptionId, reasonCode⟩

def decodeSubErr (limits : Limits) : Parts SubErrFrame := do
  let subscriptionId ← nextToken "missing subscription id"
  let code ← nextToken "missing error code"
  let lastDelivered ← nextMaybeCursor limits "missing last delivered cursor"
  let lastAcked ← nextMaybeCursor limits "missing last acked cursor"
  let messageHex ← nextToken "missing message hex"
  let subscriptionId ← subscriptionField subscriptionId limits
  let code ← reasonField code
  let message ←
    decodeStreamHex messageHex limits.maxStreamErrorMessageBytes .streamMessageTooLarge
  return ⟨subscriptionId, code, lastDelivered, lastAcked, message⟩

def decodeSubEnd (limits : Limits) : Parts SubEndFrame := do
  let subscriptionId ← nextToken "missing subscription id"
  let cursorAfter ← nextMaybeCursor limits "missing cursor_after"
  let reasonCode ← nextToken "missing reason code"
  let subscriptionId ← subscriptionField subscriptionId limits
  let reasonCode ← reasonField reasonCode
  return ⟨subscriptionId, cursorAfter, reasonCode⟩

def decodeStreamFrameBody (verb : Bytes) (limits : Limits) : Parts StreamFrame :=
  if verb = subscribeVerb then StreamFrame.subscribe <$> decodeSubscribe limits
  else if verb = subEventVerb then StreamFrame.subEvent <$> decodeSubEvent limits
  else if verb = subWatermarkVerb then StreamFrame.subWatermark <$> decodeSubWatermark limits
  else if verb = subAckVerb then StreamFrame.subAck <$> decodeSubAck limits
  else if verb = subCancelVerb then StreamFrame.subCancel <$> decodeSubCancel limits
  else if verb = subErrVerb then StreamFrame.subErr <$> decodeSubErr limits
  else if verb = subEndVerb then StreamFrame.subEnd <$> decodeSubEnd limits
  else throw (.malformedStreamFrame "unknown stream verb")

/-- The version as text, or its bytes in hexadecimal. -/
def versionText (version : Bytes) : Bytes :=
  if validUtf8 version then version else ascii "0x" ++ encodeHex version

def streamParts (limits : Limits) : Parts StreamFrame := do
  let version ← nextToken "missing protocol version"
  if version ≠ streamProtocolVersion then
    throw (.unsupportedProtocolVersion (versionText version))
  let verb ← nextToken "missing stream verb"
  let frame ← decodeStreamFrameBody verb limits
  noMoreParts (.malformedStreamFrame "too many fields")
  return frame

def decodeStreamLine (line : Bytes) (limits : Limits) : Except NetbatError StreamFrame :=
  if limits.maxLineBytes < line.length then .error (.lineTooLong limits.maxLineBytes)
  else
    let line := stripLineEnding line
    if line.isEmpty then .error (.malformedStreamFrame "empty line")
    else (streamParts limits (line.splitOn 32)).map Prod.fst

end Batpak.Netbat
