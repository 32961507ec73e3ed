/-
Module: Batpak.Syncbat.Core
Purpose: The dispatch of an operation: guard and handler as programs over the capability handles,
  the comparison with the declared row, and the receipts of a checkout.
Trusted boundary: a backend call that fails has not performed its effect; the sinks, the hash
  policy and the Debug rendering of a text are functions
Main exports: Effect, EffectBackend
-/
import Batpak.Syncbat.Operation
import Std.Data.ExtTreeMap.Lemmas

namespace Batpak.Syncbat

open Batpak.Util
open Batpak.Store (EventKind)

/-! ### Effects and their backend -/

/-- A call of a capability handle. -/
inductive Effect where
  | appendEvent (kind : EventKind) (payload : Bytes)
  | readEvent (category : String)
  | queryProjection (projectionId : String)
  | emitReceipt (receiptKind : String)
  | useHostControl
  deriving Repr, DecidableEq

structure EffectError where
  message : String
  deriving Repr, DecidableEq

/-- The backend performs an effect or refuses it; either may change it. -/
structure EffectBackend (β : Type) where
  perform : β → Effect → β × Except EffectError Unit

abbrev ReceiptExtensionDrawer :=
  Std.ExtTreeMap String Bytes compare

structure ReceiptMetadata where
  signed : ReceiptExtensionDrawer := ∅
  «local» : ReceiptExtensionDrawer := ∅

/-- The context of an invocation, with the effects that the backend performed so far. -/
structure Ctx (β : Type) where
  metadata : ReceiptMetadata
  observedEffects : OperationEffectRow
  backend : β
  performed : List Effect

namespace Ctx

variable {β : Type}

def new (backend : β) : Ctx β :=
  ⟨{}, .empty, backend, []⟩

/-- An effect is recorded after the backend has performed it. -/
def performEffect (backend : Option (EffectBackend β)) (capability : String) (effect : Effect)
    (record : OperationEffectRow → OperationEffectRow) (ctx : Ctx β) :
    Ctx β × Except EffectError Unit :=
  match backend with
  | none =>
      (ctx, .error ⟨"no effect backend is bound for this invocation; cannot " ++ capability⟩)
  | some handle =>
      match handle.perform ctx.backend effect with
      | (backend, .error error) => ({ ctx with backend }, .error error)
      | (backend, .ok ()) =>
          ({ ctx with
              backend
              observedEffects := record ctx.observedEffects
              performed := ctx.performed ++ [effect] }, .ok ())

variable (backend : Option (EffectBackend β))

def appendEvent (kind : EventKind) (payload : Bytes) (ctx : Ctx β) :
    Ctx β × Except EffectError Unit :=
  ctx.performEffect backend "append events" (.appendEvent kind payload)
    fun row => row.recordAppendsEvent (appendTarget kind)

def readEvent (category : String) (ctx : Ctx β) : Ctx β × Except EffectError Unit :=
  ctx.performEffect backend "read events" (.readEvent category)
    fun row => row.recordReadsEvent category

def queryProjection (projectionId : String) (ctx : Ctx β) : Ctx β × Except EffectError Unit :=
  ctx.performEffect backend "query projections" (.queryProjection projectionId)
    fun row => row.recordQueriesProjection projectionId

def emitReceipt (receiptKind : String) (ctx : Ctx β) : Ctx β × Except EffectError Unit :=
  ctx.performEffect backend "emit receipts" (.emitReceipt receiptKind)
    fun row => row.recordEmitsReceipt receiptKind

def useHostControl (ctx : Ctx β) : Ctx β × Except EffectError Unit :=
  ctx.performEffect backend "use host controls" .useHostControl
    fun row => row.recordUsesHostControl

/-- The handle that an effect goes through. -/
def perform (ctx : Ctx β) : Effect → Ctx β × Except EffectError Unit
  | .appendEvent kind payload => ctx.appendEvent backend kind payload
  | .readEvent category => ctx.readEvent backend category
  | .queryProjection projectionId => ctx.queryProjection backend projectionId
  | .emitReceipt receiptKind => ctx.emitReceipt backend receiptKind
  | .useHostControl => ctx.useHostControl backend

end Ctx

/-! ### Guards and handlers -/

/-- What a guard or a handler can do with its context. What it does next may depend on every
answer, so it may also go on after a failure. -/
inductive Program (α : Type) where
  | done (result : α)
  | perform (effect : Effect) (next : Except EffectError Unit → Program α)
  | observed (next : OperationEffectRow → Program α)
  | attachSigned (key : String) (value : Bytes) (next : Program α)
  | attachLocal (key : String) (value : Bytes) (next : Program α)

def runProgram {α β : Type} (backend : Option (EffectBackend β)) :
    Program α → Ctx β → α × Ctx β
  | .done result, ctx => (result, ctx)
  | .perform effect next, ctx =>
      runProgram backend (next (ctx.perform backend effect).2) (ctx.perform backend effect).1
  | .observed next, ctx => runProgram backend (next ctx.observedEffects) ctx
  | .attachSigned key value next, ctx =>
      runProgram backend next
        { ctx with metadata.signed := ctx.metadata.signed.insert key value }
  | .attachLocal key value next, ctx =>
      runProgram backend next
        { ctx with metadata.local := ctx.metadata.local.insert key value }

inductive AdmissionDecision where
  | admitted
  | deny (code message : String)
  deriving Repr, DecidableEq

inductive HandlerError where
  | invalidInput (message : String)
  | failed (message : String)
  deriving Repr, DecidableEq

def HandlerError.errorClass : HandlerError → String
  | .invalidInput _ => "invalid_input"
  | .failed _ => "failed"

def HandlerError.message : HandlerError → String
  | .invalidInput message => message
  | .failed message => message

abbrev AdmissionGuard := OperationDescriptor → Bytes → Program AdmissionDecision

abbrev Handler := Bytes → Program (Except HandlerError Bytes)

/-! ### Receipts and status facts -/

inductive ReceiptOutcome where
  | completed
  | failed (code message : String)
  | denied (code message : String)
  deriving Repr, DecidableEq

structure ReceiptEnvelope where
  descriptorName : String
  receiptKind : String
  inputHash : Option Bytes
  outputHash : Option Bytes
  outcome : ReceiptOutcome
  signedExtensions : ReceiptExtensionDrawer
  localExtensions : ReceiptExtensionDrawer

inductive OperationStatusLifecycle where
  | started
  | completed
  | failed
  | denied
  deriving Repr, DecidableEq

structure OperationStatusFactV1 where
  schemaVersion : Nat
  operation : String
  lifecycle : OperationStatusLifecycle
  receiptKind : Option String
  code : Option String
  message : Option String
  inputHash : Option Bytes
  outputHash : Option Bytes
  deriving Repr, DecidableEq

structure ReceiptSinkHandlerCause where
  code : String
  message : String
  deriving Repr, DecidableEq

inductive RuntimeError where
  | unknownOperation (name : String)
  | missingHandler (name : String)
  | handler (name code message : String)
  | denied (name code message : String)
  | receiptSink (name message : String) (causedByHandler : Option ReceiptSinkHandlerCause)
  | statusSink (name message : String) (causedByHandler : Option ReceiptSinkHandlerCause)
  deriving Repr, DecidableEq

/-- What the sinks accepted and the receipts that were attempted, oldest first. -/
structure Records where
  statuses : List OperationStatusFactV1 := []
  receipts : List ReceiptEnvelope := []
  attempts : List ReceiptEnvelope := []

/-- A part of a checkout that records and may fail. -/
abbrev Recording := EStateM RuntimeError Records

/-! ### The runtime -/

/-- A runtime as the builder makes it: every descriptor stands under its name and has a
handler. -/
structure Core (β : Type) where
  descriptors : Std.ExtTreeMap String OperationDescriptor compare
  handlers : Std.ExtTreeMap String Handler compare
  admissionGuard : Option AdmissionGuard
  receiptSink : Option (ReceiptEnvelope → Except String Unit)
  statusSink : Option (OperationStatusFactV1 → Except String Unit)
  receiptHashPolicy : Option (Bytes → Bytes)
  effectBackend : Option (EffectBackend β)
  debug : String → String
  named : ∀ (name : String) (descriptor : OperationDescriptor),
    descriptors[name]? = some descriptor → descriptor.name = name
  handled : ∀ name, name ∈ descriptors → name ∈ handlers

/-- The fields that the sink adds to a recorded receipt are left out. -/
structure CheckoutResult where
  descriptor : OperationDescriptor
  output : Bytes
  recordedReceipt : Option ReceiptEnvelope

namespace Core

variable {β : Type} (core : Core β)

theorem exists_handler {name : String} {descriptor : OperationDescriptor}
    (h : core.descriptors[name]? = some descriptor) :
    ∃ handler, core.handlers[name]? = some handler := by
  apply Option.isSome_iff_exists.mp
  apply Std.ExtTreeMap.isSome_getElem?_iff_mem.mpr
  apply core.handled
  rw [← Std.ExtTreeMap.isSome_getElem?_iff_mem, h]
  rfl

def hash (bytes : Bytes) : Option Bytes :=
  core.receiptHashPolicy.map fun policy => policy bytes

def recordFact (descriptor : OperationDescriptor) (fact : OperationStatusFactV1)
    (handlerCause : Option ReceiptSinkHandlerCause) : Recording Unit := fun records =>
  match core.statusSink with
  | none => .ok () records
  | some sink =>
      match sink fact with
      | .ok () => .ok () { records with statuses := records.statuses ++ [fact] }
      | .error message => .error (.statusSink descriptor.name message handlerCause) records

/-- A started fact carries no hashes and no outcome. -/
def recordStarted (descriptor : OperationDescriptor) : Recording Unit :=
  core.recordFact descriptor
    ⟨1, descriptor.name, .started, some descriptor.receiptKind, none, none, none, none⟩ none

def recordRuntimeStatus (descriptor : OperationDescriptor) (lifecycle : OperationStatusLifecycle)
    (input : Bytes) (output : Option Bytes) (code message : Option String)
    (handlerCause : Option ReceiptSinkHandlerCause) : Recording Unit :=
  core.recordFact descriptor
    ⟨1, descriptor.name, lifecycle, some descriptor.receiptKind, code, message, core.hash input,
      output.bind core.hash⟩ handlerCause

def recordRuntimeReceipt (descriptor : OperationDescriptor) (input : Bytes)
    (output : Option Bytes) (outcome : ReceiptOutcome)
    (handlerCause : Option ReceiptSinkHandlerCause) (metadata : ReceiptMetadata) :
    Recording (Option ReceiptEnvelope) := fun records =>
  match core.receiptSink with
  | none => .ok none records
  | some sink =>
      let envelope : ReceiptEnvelope :=
        ⟨descriptor.name, descriptor.receiptKind, core.hash input, output.bind core.hash, outcome,
          metadata.signed, metadata.local⟩
      let attempted := { records with attempts := records.attempts ++ [envelope] }
      match sink envelope with
      | .ok () => .ok (some envelope) { attempted with receipts := records.receipts ++ [envelope] }
      | .error message => .error (.receiptSink descriptor.name message handlerCause) attempted

/-- The end of a checkout that is denied, by the guard or for an observed effect. -/
def deny (descriptor : OperationDescriptor) (input : Bytes) (code message : String)
    (metadata : ReceiptMetadata) : Recording CheckoutResult := do
  core.recordRuntimeStatus descriptor .denied input none (some code) (some message) none
  let _ ← core.recordRuntimeReceipt descriptor input none (.denied code message) none metadata
  throw (.denied descriptor.name code message)

/-- The end of a checkout whose handler failed. -/
def fail (descriptor : OperationDescriptor) (input : Bytes) (error : HandlerError)
    (metadata : ReceiptMetadata) : Recording CheckoutResult := do
  let cause : ReceiptSinkHandlerCause := ⟨error.errorClass, error.message⟩
  core.recordRuntimeStatus descriptor .failed input none (some cause.code) (some cause.message)
    (some cause)
  let _ ← core.recordRuntimeReceipt descriptor input none (.failed cause.code cause.message)
    (some cause) metadata
  throw (.handler descriptor.name cause.code cause.message)

/-- The receipt of a completion goes out before its status fact. -/
def complete (descriptor : OperationDescriptor) (input output : Bytes)
    (metadata : ReceiptMetadata) : Recording CheckoutResult := do
  let receipt ← core.recordRuntimeReceipt descriptor input (some output) .completed none metadata
  core.recordRuntimeStatus descriptor .completed input (some output) none none none
  return ⟨descriptor, output, receipt⟩

/-- The observed row is compared before the result of the handler is looked at. -/
def finishHandlerPhase (descriptor : OperationDescriptor) (input : Bytes)
    (handlerResult : Except HandlerError Bytes) (observed : OperationEffectRow)
    (metadata : ReceiptMetadata) : Recording CheckoutResult :=
  match observed.firstViolationAgainst core.debug descriptor.effectRow with
  | some violation => core.deny descriptor input violation.code violation.message metadata
  | none =>
      match handlerResult with
      | .error error => core.fail descriptor input error metadata
      | .ok output => core.complete descriptor input output metadata

def missingHandler (descriptor : OperationDescriptor) (input : Bytes) :
    Recording CheckoutResult := do
  core.recordRuntimeStatus descriptor .failed input none (some "missing_handler")
    (some "operation descriptor has no registered handler") none
  throw (.missingHandler descriptor.name)

end Core

/-- A checkout with the context it leaves: the result with all that was recorded, the observed
row, the effects that were performed and the backend. -/
structure CheckoutTrace (β : Type) where
  ctx : Ctx β
  outcome : EStateM.Result RuntimeError Records CheckoutResult

namespace CheckoutTrace

variable {β : Type}

def records (trace : CheckoutTrace β) : Records :=
  match trace.outcome with
  | .ok _ records => records
  | .error _ records => records

def result (trace : CheckoutTrace β) : Except RuntimeError CheckoutResult :=
  match trace.outcome with
  | .ok result _ => .ok result
  | .error error _ => .error error

end CheckoutTrace

section Checkout

variable {β : Type} (core : Core β)

/-- The guard, if there is one, decides before the handler runs. -/
def Core.admission (descriptor : OperationDescriptor) (input : Bytes) (ctx : Ctx β) :
    AdmissionDecision × Ctx β :=
  match core.admissionGuard with
  | none => (.admitted, ctx)
  | some guard => runProgram core.effectBackend (guard descriptor input) ctx

/-- The handler runs in the context of the guard. -/
def Core.dispatch (descriptor : OperationDescriptor) (input : Bytes) (ctx : Ctx β) :
    CheckoutTrace β :=
  match core.recordStarted descriptor {} with
  | .error error records => ⟨ctx, .error error records⟩
  | .ok () records =>
      match core.handlers[descriptor.name]? with
      | none => ⟨ctx, core.missingHandler descriptor input records⟩
      | some handler =>
          let run := runProgram core.effectBackend (handler input) ctx
          ⟨run.2, core.finishHandlerPhase descriptor input run.1 run.2.observedEffects
            run.2.metadata records⟩

/-- A checkout of a name on the backend as it stands. -/
def Core.checkout (backend : β) (name : String) (input : Bytes) : CheckoutTrace β :=
  match core.descriptors[name]? with
  | none => ⟨.new backend, .error (.unknownOperation name) {}⟩
  | some descriptor =>
      let admission := core.admission descriptor input (.new backend)
      match admission.1 with
      | .deny code message =>
          ⟨admission.2, core.deny descriptor input code message admission.2.metadata {}⟩
      | .admitted => core.dispatch descriptor input admission.2

end Checkout

end Batpak.Syncbat
