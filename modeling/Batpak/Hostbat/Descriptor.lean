/-
Module: Batpak.Hostbat.Descriptor
Purpose: What a host module declares: its guard, hooks and jobs, the wire schemas with their
  content hash, the subscriptions it exports and the payload schemas of event kinds.
Trusted boundary: the canonical encoder and the hash are functions
Main exports: Digest, HostError
-/
import Batpak.Syncbat.Operation
import Batpak.Util.KeyOrder

namespace Batpak.Hostbat

open Batpak.Util
open Batpak.Store (Coordinate EventKind)
open Batpak.Syncbat (utf8)
open Batpak.Netbat (dot hasDoubleDot isPunctuation isLower isDigit)

/-- A 32-byte digest over canonical bytes. -/
abbrev Digest := BitVec 256

/-! ### Errors -/

structure SchemaCollision where
  schema : String
  version : Nat
  role : String
  firstModule : String
  firstEncoding : Digest
  secondModule : String
  secondEncoding : Digest
  deriving Repr, DecidableEq

/-- The refusals of the runtime a host is lowered into. -/
inductive BuildError where
  | invalidOperation (name detail : String)
  | duplicateOperation (name : String)
  | duplicateHandler (name : String)
  | missingHandler (name : String)
  | missingDescriptor (name : String)
  deriving Repr, DecidableEq

inductive HostError where
  | duplicateModuleId (id : String)
  | duplicateOperation (operation module : String)
  | effectConflict (operation module : String)
  | duplicateReceiptNamespace (receiptNamespace module : String)
  | duplicateJobKind (kind module : String)
  | moduleHashMismatch (module : String)
  | moduleCoherence (module detail : String)
  | canonicalEncoding (detail : String)
  | schemaInvalid (schema detail : String)
  | schemaCollision (collision : SchemaCollision)
  | schemaReferenceMissing (module : String) (operation : Option String) (reference role : String)
  | schemaReferenceAmbiguous (module : String) (operation : Option String)
      (reference role : String) (versions : List Nat)
  | emptyHost
  | build (error : BuildError)
  | subscriptionDuplicateWithinModule (module id : String)
  | duplicateSubscriptionId (id module : String)
  | subscriptionPayloadSchemaMissing (module subscription reference role : String)
  | eventPayloadBindingInvalid (kind : Nat) (detail : String)
  | eventPayloadBindingDuplicateWithinModule (module : String) (kind : Nat)
  | duplicateEventPayloadBinding (kind : Nat) (module : String)
  | eventPayloadBindingConflict (kind : Nat)
      (firstModule firstSchemaRef secondModule secondSchemaRef : String)
  | eventPayloadBindingSchemaMissing (module : String) (kind : Nat) (reference : String)
  deriving Repr, DecidableEq

/-- Hash what the canonical encoder made of a view. -/
def canonicalDigest (computeHash : Bytes → Digest) (bytes : Except String Bytes) :
    Except HostError Digest :=
  (bytes.mapError HostError.canonicalEncoding).map computeHash

/-! ### Identifiers -/

/-- The texts with which a kind of dotted identifier is refused. -/
structure IdGrammar where
  maxBytes : Nat
  empty : String
  long : String
  edgeDot : String
  doubledDot : String
  foreign : String

def isIdByte (b : UInt8) : Bool :=
  isLower b || isDigit b || isPunctuation b

/-- What is wrong with an identifier, if anything. -/
def IdGrammar.reject (g : IdGrammar) (id : String) : Option String :=
  if (utf8 id).isEmpty then some g.empty
  else if g.maxBytes < (utf8 id).length then some g.long
  else if (utf8 id).head? = some dot ∨ (utf8 id).getLast? = some dot then some g.edgeDot
  else if hasDoubleDot (utf8 id) then some g.doubledDot
  else if !(utf8 id).all isIdByte then some g.foreign
  else none

/-! ### Guards, hooks and jobs -/

inductive HookPhase where
  | startup
  | shutdown
  deriving Repr, DecidableEq

namespace HookPhase

def rank : HookPhase → Nat
  | startup => 0
  | shutdown => 1

def display : HookPhase → String
  | startup => "startup"
  | shutdown => "shutdown"

theorem rank_injective : Function.Injective rank := by
  intro a b h
  cases a <;> cases b <;> first | rfl | cases h

end HookPhase

structure GuardDescriptor where
  code : String
  deriving Repr, DecidableEq

structure HookDescriptor where
  phase : HookPhase
  name : String
  order : Nat
  deriving Repr, DecidableEq

/-- Phase, order, name. -/
def HookDescriptor.orderKey (h : HookDescriptor) : ℕ ×ₗ ℕ ×ₗ String :=
  toLex (h.phase.rank, toLex (h.order, h.name))

structure JobDescriptor where
  kind : String
  deriving Repr, DecidableEq

/-! ### Schemas -/

def schemaIdGrammar : IdGrammar where
  maxBytes := 256
  empty := "empty schema id"
  long := "schema id longer than 256 bytes"
  edgeDot := "schema id has a leading or trailing '.'"
  doubledDot := "schema id has a doubled '.'"
  foreign := "schema id has characters outside [a-z0-9._-]"

structure SchemaId where
  text : String
  wellFormed : schemaIdGrammar.reject text = none
  deriving DecidableEq

def SchemaId.new (id : String) : Except HostError SchemaId :=
  match h : schemaIdGrammar.reject id with
  | some detail => .error (.schemaInvalid id detail)
  | none => .ok ⟨id, h⟩

inductive SchemaRole where
  | operationInput
  | operationOutput
  | eventPayload
  | receiptPayload
  | subscriptionPayload
  deriving Repr, DecidableEq

namespace SchemaRole

def asStr : SchemaRole → String
  | operationInput => "operation-input"
  | operationOutput => "operation-output"
  | eventPayload => "event-payload"
  | receiptPayload => "receipt-payload"
  | subscriptionPayload => "subscription-payload"

def rank : SchemaRole → Nat
  | operationInput => 0
  | operationOutput => 1
  | eventPayload => 2
  | receiptPayload => 3
  | subscriptionPayload => 4

theorem asStr_injective : Function.Injective asStr := by
  intro a b h
  cases a <;> cases b <;> first | rfl | exact absurd h (by decide)

theorem rank_injective : Function.Injective rank := by
  intro a b h
  cases a <;> cases b <;> first | rfl | cases h

end SchemaRole

/-- A named example of the wire bytes. -/
structure GoldenVector where
  case : String
  bytes : Bytes
  deriving Repr, DecidableEq

/-- The Rust type that materializes a schema is recorded for information only. -/
structure SchemaDescriptor where
  id : SchemaId
  version : Nat
  role : SchemaRole
  golden : List GoldenVector
  diagnosticRustType : Option String
  encoding : Digest
  deriving DecidableEq

structure SchemaEncodingView where
  domain : String
  id : String
  version : Nat
  role : String
  golden : List GoldenVector
  deriving DecidableEq

def schemaEncodingDomain : String := "hostbat.schema.v3"

/-- The first element that has the key of its successor. -/
def adjacentTwin {α κ : Type} [DecidableEq κ] (key : α → κ) : List α → Option α
  | a :: b :: rest => if key a = key b then some a else adjacentTwin key (b :: rest)
  | _ => none

namespace SchemaDescriptor

section Encoding

variable (computeHash : Bytes → Digest) (toBytes : SchemaEncodingView → Except String Bytes)
  (debug : String → String)

def computeEncoding (id : SchemaId) (version : Nat) (role : SchemaRole)
    (golden : List GoldenVector) : Except HostError Digest :=
  canonicalDigest computeHash
    (toBytes ⟨schemaEncodingDomain, id.text, version, role.asStr, golden⟩)

/-- The vectors are sorted, so that their order does not matter. -/
def new (id : SchemaId) (version : Nat) (role : SchemaRole) (golden : List GoldenVector) :
    Except HostError SchemaDescriptor :=
  match adjacentTwin GoldenVector.case (sortOn GoldenVector.case golden) with
  | some twin =>
      .error (.schemaInvalid id.text
        ("golden vector case " ++ debug twin.case ++ " is declared twice"))
  | none => do
      let encoding ← computeEncoding computeHash toBytes id version role
        (sortOn GoldenVector.case golden)
      .ok ⟨id, version, role, sortOn GoldenVector.case golden, none, encoding⟩

end Encoding

/-- Id, version and role, in this order. -/
def identityKey (s : SchemaDescriptor) : String ×ₗ ℕ ×ₗ ℕ :=
  toLex (s.id.text, toLex (s.version, s.role.rank))

end SchemaDescriptor

/-! ### Subscriptions -/

/-- An exported event category: four bits, the reserved ones left out. -/
structure EventCategory where
  raw : Nat
  exported : raw < 16 ∧ raw ≠ 0 ∧ raw ≠ 13
  deriving DecidableEq

inductive SubscriptionSource where
  | eventCategory (category : EventCategory)
  | entityStream (coordinate : Coordinate)
  | projection (projectionId : String)
  | receiptStream (receiptKind : String)
  | operationStatus (operation : String)
  deriving DecidableEq

/-- The role the payload schema must have. -/
def SubscriptionSource.requiredPayloadRole : SubscriptionSource → SchemaRole
  | eventCategory _ | entityStream _ => .eventPayload
  | receiptStream _ => .receiptPayload
  | projection _ | operationStatus _ => .subscriptionPayload

inductive SubscriptionDelivery where
  | cursorAtLeastOnce
  deriving Repr, DecidableEq

def SubscriptionDelivery.asStr : SubscriptionDelivery → String
  | cursorAtLeastOnce => "cursor-at-least-once"

inductive BackpressurePolicy where
  | boundedQueue (capacity : Nat)
  deriving Repr, DecidableEq

def BackpressurePolicy.kind : BackpressurePolicy → String
  | boundedQueue _ => "bounded-queue"

structure SubscriptionDescriptor where
  id : String
  source : SubscriptionSource
  payloadSchemaRef : String
  delivery : SubscriptionDelivery
  backpressure : BackpressurePolicy
  deriving DecidableEq

def SubscriptionDescriptor.requiredPayloadRole (s : SubscriptionDescriptor) : SchemaRole :=
  s.source.requiredPayloadRole

/-! ### Payloads of event kinds -/

structure EventPayloadBinding where
  kind : EventKind
  payloadSchemaRef : String
  deriving DecidableEq

namespace EventPayloadBinding

def new (kind : EventKind) (payloadSchemaRef : String) : Except HostError EventPayloadBinding :=
  if payloadSchemaRef = "" then
    .error (.eventPayloadBindingInvalid kind.raw "payload schema reference is empty")
  else .ok ⟨kind, payloadSchemaRef⟩

def kindRaw (b : EventPayloadBinding) : Nat := b.kind.raw

end EventPayloadBinding

end Batpak.Hostbat
