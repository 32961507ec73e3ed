/-
Module: Batpak.Store.TypedWrite
Purpose: The typed write surface: every call that takes a payload type, the submission or
  the batch items it lowers to, and the command that reaches the writer.
Trusted boundary: generated ids and the clock are read from the call's context
Main exports: AppendOptions, AppendSubmission
-/
import Batpak.Store.Coordinate
import Batpak.Store.Decode

namespace Batpak.Store

open Batpak.Util

/-! ### Submissions -/

structure PositionHint where
  lane : Nat
  depth : Nat
  branchRoot : Bool
  deriving Repr, Inhabited, DecidableEq

/-- The options of an append. The durability gate only makes the caller wait. -/
structure AppendOptions where
  expectedSequence : Option Nat := none
  idempotencyKey : Option Nat := none
  correlationId : Option Nat := none
  causationId : Option Nat := none
  positionHint : Option PositionHint := none
  flags : Nat := 0
  extensions : Extensions := []
  deriving Repr, Inhabited, DecidableEq

inductive SubmitError where
  | store (e : StoreError)
  | invalidCoordinate (index : Option Nat) (reason : String)
  | idempotencyRequired
  | invalidPayloadVersion (kind : Nat)
  deriving Repr, DecidableEq

/-- What a submission reads of the store and its surroundings. -/
structure SubmitContext where
  rt : Runtime
  publicFenceActive : Bool
  requireIdempotencyKeys : Bool
  singleAppendMaxBytes : Nat
  queued : Nat
  pressureRetryThreshold : Nat
  nowUs : Int
  generatedId : Nat → Nat
  respond : Nat

/-- A single append on its way to the writer. A keyed one takes the key as its event id. -/
structure AppendSubmission where
  eventId : Nat
  correlationId : Nat
  options : AppendOptions
  fenceToken : Option Nat
  payloadVersion : Nat
  keyed_id : options.idempotencyKey.all (· == eventId) = true

namespace AppendSubmission

def root (ctx : SubmitContext) : AppendSubmission :=
  ⟨ctx.generatedId 0, ctx.generatedId 0, {}, none, 0, rfl⟩

def withPayloadVersion (s : AppendSubmission) (payloadVersion : Nat) : AppendSubmission :=
  { s with payloadVersion := payloadVersion }

def rootUnderFence (token : Nat) (ctx : SubmitContext) : AppendSubmission :=
  { root ctx with fenceToken := some token }

def reaction (ctx : SubmitContext) (correlationId causationId : Nat) : AppendSubmission :=
  ⟨ctx.generatedId 0, correlationId,
    { causationId := if causationId ≠ 0 then some causationId else none }, none, 0, rfl⟩

def reactionUnderFence (token : Nat) (ctx : SubmitContext) (correlationId causationId : Nat) :
    AppendSubmission :=
  { reaction ctx correlationId causationId with fenceToken := some token }

theorem keyed_getD (key : Option Nat) (generated : Nat) :
    key.all (· == key.getD generated) = true := by
  cases key <;> simp

def withOptions (options : AppendOptions) (ctx : SubmitContext) : AppendSubmission :=
  let eventId := options.idempotencyKey.getD (ctx.generatedId 0)
  ⟨eventId, options.correlationId.getD eventId, options, none, 0,
    keyed_getD options.idempotencyKey (ctx.generatedId 0)⟩

def validateRoute (s : AppendSubmission) (ctx : SubmitContext) : Except SubmitError Unit :=
  if s.fenceToken = none ∧ ctx.publicFenceActive = true then .error (.store .visibilityFenceActive)
  else .ok ()

def validateIdempotency (s : AppendSubmission) (ctx : SubmitContext) : Except SubmitError Unit :=
  if ctx.requireIdempotencyKeys = true ∧ s.options.idempotencyKey = none then
    .error .idempotencyRequired
  else .ok ()

/-- The event as submitted: at the root position, unhashed, with the flags and the version
stamped when there are any. -/
def buildEvent (s : AppendSubmission) (payload : Except String Bytes) (kind : EventKind)
    (nowUs : Int) : Except SubmitError (Event Bytes) :=
  match payload with
  | .error e => .error (.store (.serialization e))
  | .ok bytes =>
      if u32Max < bytes.length then
        .error (.store (.serialization "payload size exceeds u32::MAX (4GB limit)"))
      else
        let header : EventHeader := {
          eventId := s.eventId
          correlationId := s.correlationId
          causationId := s.options.causationId
          timestampUs := nowUs
          wallMs := 0
          clock := 0
          dagLane := 0
          dagDepth := 0
          payloadSize := bytes.length
          kind := kind
          flags := 0
          contentHash := 0
          payloadVersion := 0 }
        let header := if s.options.flags ≠ 0 then { header with flags := s.options.flags } else header
        let header :=
          if s.payloadVersion ≠ 0 then { header with payloadVersion := s.payloadVersion } else header
        .ok ⟨header, bytes, none⟩

/-- The writer's request: the event, and the guards from the options. -/
def intoCommand (s : AppendSubmission) (coord : Coordinate) (kind : EventKind)
    (hkind : kind.isBatchMarker = false) (event : Event Bytes) (respond : Nat) : WriterCommand :=
  let hint := s.options.positionHint.getD ⟨0, 0, false⟩
  let req : AppendRequest := {
    coord := coord
    eventId := s.eventId
    kind := kind
    payload := event.payload
    timestampUs := event.header.timestampUs
    correlationId := s.correlationId
    causationId := s.options.causationId
    expectedSequence := s.options.expectedSequence
    idempotencyKey := s.options.idempotencyKey
    dagLane := hint.lane
    dagDepth := hint.depth
    dagBranchRoot := hint.branchRoot
    flags := event.header.flags
    payloadVersion := event.header.payloadVersion
    extensions := s.options.extensions
    kind_appendable := hkind
    keyed_id := s.keyed_id }
  match s.fenceToken with
  | some token => .fenceAppend token req respond
  | none => .append req respond

end AppendSubmission

/-- The public funnel of single appends; the reserved kinds are turned away first. -/
def submitPrepared (ctx : SubmitContext) (coord : Coordinate) (kind : EventKind)
    (payload : Except String Bytes) (submission : AppendSubmission) :
    Except SubmitError WriterCommand :=
  if h : kind.isReserved = true then .error (.store (.reservedKind none kind.raw))
  else do
    submission.validateRoute ctx
    submission.validateIdempotency ctx
    let event ← submission.buildEvent payload kind ctx.nowUs
    let appendBytes :=
      event.payload.length + encodedReceiptExtensionsLen ctx.rt submission.options.extensions
    if ctx.singleAppendMaxBytes < appendBytes then
      .error (.store (.configuration ("single append bytes " ++ toString appendBytes ++
        " exceeds max " ++ toString ctx.singleAppendMaxBytes)))
    else
      .ok (submission.intoCommand coord kind
        (EventKind.not_marker_of_not_reserved (by simpa using h)) event ctx.respond)

/-! ### Batches -/

/-- A batch item as its caller builds it. It has no place for a payload version. -/
structure RawBatchItem where
  coord : Coordinate
  kind : EventKind
  payload : Bytes
  options : AppendOptions
  causation : CausationRef
  deriving Repr, Inhabited, DecidableEq

namespace RawBatchItem

def new (coord : Coordinate) (kind : EventKind) (payload : Except String Bytes)
    (options : AppendOptions) (causation : CausationRef) : Except SubmitError RawBatchItem :=
  match payload with
  | .error e => .error (.store (.serialization e))
  | .ok bytes => .ok ⟨coord, kind, bytes, options, causation⟩

def typed {α : Type} (T : EventPayload α) (coord : Coordinate) (payload : α)
    (options : AppendOptions) (causation : CausationRef) : Except SubmitError RawBatchItem :=
  new coord T.kind (T.toBytes payload) options causation

/-- The item as the writer takes it, unless its kind is reserved. -/
def accept (ctx : SubmitContext) (item : RawBatchItem) (idx : Nat) :
    Except SubmitError BatchAppendItem :=
  if h : item.kind.isReserved = true then
    .error (.store (.reservedKind (some idx) item.kind.raw))
  else
    let hint := item.options.positionHint.getD ⟨0, 0, false⟩
    .ok {
      coord := item.coord
      kind := item.kind
      payload := item.payload
      generatedId := ctx.generatedId idx
      correlationId := item.options.correlationId
      causationId := item.options.causationId
      causation := item.causation
      expectedSequence := item.options.expectedSequence
      idempotencyKey := item.options.idempotencyKey
      dagLane := hint.lane
      dagDepth := hint.depth
      dagBranchRoot := hint.branchRoot
      flags := item.options.flags
      extensions := item.options.extensions
      kind_appendable := EventKind.not_marker_of_not_reserved (by simpa using h) }

/-- The synchronous check of one item of an unfenced batch. -/
def precheck (ctx : SubmitContext) (item : RawBatchItem) (idx : Nat) : Except SubmitError Unit :=
  match item.coord.validate with
  | .error e => .error (.invalidCoordinate (some idx) e.display)
  | .ok () =>
      let size := item.payload.length + encodedReceiptExtensionsLen ctx.rt item.options.extensions
      if ctx.singleAppendMaxBytes < size then
        .error (.store (.batchItemTooLarge idx size ctx.singleAppendMaxBytes))
      else .ok ()

end RawBatchItem

def submitBatchWithFenceImpl (ctx : SubmitContext) (items : List RawBatchItem)
    (token : Option Nat) : Except SubmitError WriterCommand := do
  let accepted ← items.zipIdx.mapM fun (item, idx) => item.accept ctx idx
  match token with
  | some token => .ok (.fenceAppendBatch token ctx.nowUs accepted ctx.respond)
  | none => .ok (.appendBatch ctx.nowUs accepted ctx.respond)

def submitBatch (ctx : SubmitContext) (items : List RawBatchItem) :
    Except SubmitError WriterCommand :=
  if ctx.publicFenceActive = true then .error (.store .visibilityFenceActive)
  else do
    items.zipIdx.forM fun (item, idx) => item.precheck ctx idx
    submitBatchWithFenceImpl ctx items none

/-- Correlation of the triggering event on every item; its causation where the item names
none. -/
def submitReactionBatch (ctx : SubmitContext) (correlationId causationId : Nat)
    (items : List RawBatchItem) : Except SubmitError WriterCommand :=
  submitBatch ctx (items.map fun item =>
    { item with options := { item.options with
        correlationId := some correlationId
        causationId := if item.causation = .none then some causationId
          else item.options.causationId } })

/-! ### Typed calls -/

/-- What a call hands back before the writer has answered. -/
inductive Submitted where
  | queued (command : WriterCommand)
  | cancelled (reason : String)
  | retry (reason : String)

section Typed

variable {α : Type} (T : EventPayload α) (ctx : SubmitContext)

/-- Version zero would make a typed frame look untyped. -/
def guardTypedPayloadVersion (kind : EventKind) (version : Nat) : Except SubmitError Unit :=
  if version = 0 then .error (.invalidPayloadVersion kind.raw) else .ok ()

/-- The versioned funnels: `submit_versioned`, `submit_with_options_versioned` and
`submit_reaction_versioned` differ in the submission they stamp. -/
def submitStamped (coord : Coordinate) (payload : α) (submission : AppendSubmission) :
    Except SubmitError Submitted := do
  guardTypedPayloadVersion T.kind T.payloadVersion
  let command ← submitPrepared ctx coord T.kind (T.toBytes payload)
    (submission.withPayloadVersion T.payloadVersion)
  return .queued command

/-- The `try_` variants look at the fence and the mailbox first. -/
def trySubmit (submit : Except SubmitError Submitted) : Except SubmitError Submitted :=
  if ctx.publicFenceActive = true then
    .ok (.cancelled "visibility fence is active; submit through the fence")
  else if ctx.pressureRetryThreshold ≤ ctx.queued then
    .ok (.retry ("writer mailbox at " ++ toString ctx.queued ++ " queued commands"))
  else submit

/-- The untyped funnel with the type's kind, which is all the fenced calls keep of it. -/
def submitUnstamped (coord : Coordinate) (payload : α) (submission : AppendSubmission) :
    Except SubmitError Submitted := do
  let command ← submitPrepared ctx coord T.kind (T.toBytes payload) submission
  return .queued command

def queuedBatch (command : Except SubmitError WriterCommand) : Except SubmitError Submitted :=
  command.map .queued

end Typed

/-- One typed item of a batch, an outbox or a reactor's output. -/
structure TypedItem (α : Type) where
  coord : Coordinate
  payload : α
  options : AppendOptions
  causation : CausationRef

/-- The calls that take a value of a payload type. `batch` is `BatchAppendItem::typed` followed
by one of the batch calls, `outbox` is `Outbox::stage_typed` and its variants up to the flush,
`reactions` is `ReactionBatch::push_typed` up to its flush; the first two under a fence when
there is a token. -/
inductive TypedCall (α : Type) where
  | appendTyped (coord : Coordinate) (payload : α)
  | appendTypedWithOptions (coord : Coordinate) (payload : α) (options : AppendOptions)
  | submitTyped (coord : Coordinate) (payload : α)
  | trySubmitTyped (coord : Coordinate) (payload : α)
  | appendReactionTyped (coord : Coordinate) (payload : α) (correlationId causationId : Nat)
  | submitReactionTyped (coord : Coordinate) (payload : α) (correlationId causationId : Nat)
  | trySubmitReactionTyped (coord : Coordinate) (payload : α) (correlationId causationId : Nat)
  | applyTransition (coord : Coordinate) (payload : α)
  | fenceSubmitTyped (token : Nat) (coord : Coordinate) (payload : α)
  | fenceSubmitReactionTyped (token : Nat) (coord : Coordinate) (payload : α)
      (correlationId causationId : Nat)
  | batch (fence : Option Nat) (items : List (TypedItem α))
  | outbox (fence : Option Nat) (items : List (TypedItem α))
  | reactions (correlationId causationId : Nat) (items : List (TypedItem α))

namespace TypedCall

variable {α : Type} (T : EventPayload α) (ctx : SubmitContext)

/-- `BatchAppendItem::typed` on each item, in order. -/
def typedItems (items : List (TypedItem α)) : Except SubmitError (List RawBatchItem) :=
  items.mapM fun item => RawBatchItem.typed T item.coord item.payload item.options item.causation

/-- `stage_with_options_and_causation` with the type's kind, item by item. -/
def stagedItems (items : List (TypedItem α)) : Except SubmitError (List RawBatchItem) :=
  items.mapM fun item =>
    RawBatchItem.new item.coord T.kind (T.toBytes item.payload) item.options item.causation

def flush (fence : Option Nat) (items : List RawBatchItem) : Except SubmitError WriterCommand :=
  match fence with
  | some token => submitBatchWithFenceImpl ctx items (some token)
  | none => submitBatch ctx items

def submit : TypedCall α → Except SubmitError Submitted
  | appendTyped coord payload => submitStamped T ctx coord payload (.root ctx)
  | appendTypedWithOptions coord payload options =>
      submitStamped T ctx coord payload (.withOptions options ctx)
  | submitTyped coord payload => submitStamped T ctx coord payload (.root ctx)
  | trySubmitTyped coord payload =>
      trySubmit ctx (submitStamped T ctx coord payload (.root ctx))
  | appendReactionTyped coord payload correlationId causationId =>
      submitStamped T ctx coord payload (.reaction ctx correlationId causationId)
  | submitReactionTyped coord payload correlationId causationId =>
      submitStamped T ctx coord payload (.reaction ctx correlationId causationId)
  | trySubmitReactionTyped coord payload correlationId causationId =>
      trySubmit ctx (submitStamped T ctx coord payload (.reaction ctx correlationId causationId))
  | applyTransition coord payload => submitStamped T ctx coord payload (.root ctx)
  | fenceSubmitTyped token coord payload =>
      submitUnstamped T ctx coord payload (.rootUnderFence token ctx)
  | fenceSubmitReactionTyped token coord payload correlationId causationId =>
      submitUnstamped T ctx coord payload
        (.reactionUnderFence token ctx correlationId causationId)
  | batch fence items => do
      let items ← typedItems T items
      queuedBatch (flush ctx fence items)
  | outbox fence items => do
      let items ← stagedItems T items
      queuedBatch (flush ctx fence items)
  | reactions correlationId causationId items => do
      let items ← typedItems T items
      queuedBatch (submitReactionBatch ctx correlationId causationId items)

/-- The calls that go through the versioned funnels. -/
def stamps : TypedCall α → Bool
  | appendTyped .. => true
  | appendTypedWithOptions .. => true
  | submitTyped .. => true
  | trySubmitTyped .. => true
  | appendReactionTyped .. => true
  | submitReactionTyped .. => true
  | trySubmitReactionTyped .. => true
  | applyTransition .. => true
  | fenceSubmitTyped .. => false
  | fenceSubmitReactionTyped .. => false
  | batch .. => false
  | outbox .. => false
  | reactions .. => false

end TypedCall

end Batpak.Store
