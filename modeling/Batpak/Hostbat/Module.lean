/-
Module: Batpak.Hostbat.Module
Purpose: Host modules and their sealed manifests: the parts a builder registers, the checks it
  makes, the canonical view of the declared parts and the digest over it.
Trusted boundary: the canonical encoder and the hash are functions; handlers, guards, hooks
  and job bodies are values of one type
Main exports: ManifestView, SealedParts
-/
import Batpak.Hostbat.Descriptor

namespace Batpak.Hostbat

open Batpak.Util
open Batpak.Store (EventKind)
open Batpak.Syncbat (OperationDescriptor DescriptorValidationError)

/-! ### The manifest -/

structure OperationView where
  name : String
  effect : String
  inputSchemaRef : String
  outputSchemaRef : String
  receiptKind : String
  title : Option String
  deriving DecidableEq

def OperationView.ofDescriptor (d : OperationDescriptor) : OperationView where
  name := d.name
  effect := d.effect.asStr
  inputSchemaRef := d.inputSchemaRef
  outputSchemaRef := d.outputSchemaRef
  receiptKind := d.receiptKind
  title := d.title

structure SchemaManifestView where
  id : String
  version : Nat
  role : String
  encoding : Digest
  deriving DecidableEq

def SchemaDescriptor.manifestView (s : SchemaDescriptor) : SchemaManifestView :=
  ⟨s.id.text, s.version, s.role.asStr, s.encoding⟩

structure EventPayloadBindingView where
  kind : Nat
  payloadSchemaRef : String
  deriving DecidableEq

def EventPayloadBinding.manifestView (b : EventPayloadBinding) : EventPayloadBindingView :=
  ⟨b.kindRaw, b.payloadSchemaRef⟩

/-- What the digest of a module is taken over. -/
structure ManifestView where
  domain : String
  id : String
  version : Nat
  operations : List OperationView
  receiptNamespaces : List String
  guard : Option GuardDescriptor
  hooks : List HookDescriptor
  jobs : List JobDescriptor
  schemas : List SchemaManifestView
  subscriptions : List SubscriptionDescriptor
  eventPayloadBindings : List EventPayloadBindingView
  deriving DecidableEq

/-- The declared parts of a module, each list in its canonical order. -/
structure SealedParts where
  id : String
  version : Nat
  operations : List OperationDescriptor
  receiptNamespaces : List String
  guard : Option GuardDescriptor
  hooks : List HookDescriptor
  jobs : List JobDescriptor
  schemas : List SchemaDescriptor
  subscriptions : List SubscriptionDescriptor
  eventPayloadBindings : List EventPayloadBinding
  deriving DecidableEq

structure HostModuleManifest extends SealedParts where
  digest : Digest
  deriving DecidableEq

def moduleDigestDomain : String := "hostbat.module.v1"

def SealedParts.view (parts : SealedParts) : ManifestView where
  domain := moduleDigestDomain
  id := parts.id
  version := parts.version
  operations := parts.operations.map OperationView.ofDescriptor
  receiptNamespaces := parts.receiptNamespaces
  guard := parts.guard
  hooks := parts.hooks
  jobs := parts.jobs
  schemas := parts.schemas.map SchemaDescriptor.manifestView
  subscriptions := parts.subscriptions
  eventPayloadBindings := parts.eventPayloadBindings.map EventPayloadBinding.manifestView

/-- The hash, the canonical encoder at the types a module needs, and the quoting of a text. -/
structure Codec where
  computeHash : Bytes → Digest
  schemaBytes : SchemaEncodingView → Except String Bytes
  manifestBytes : ManifestView → Except String Bytes
  debug : String → String

def computeDigest (codec : Codec) (parts : SealedParts) : Except HostError Digest :=
  canonicalDigest codec.computeHash (codec.manifestBytes parts.view)

namespace HostModuleManifest

def sealParts (codec : Codec) (parts : SealedParts) : Except HostError HostModuleManifest := do
  let digest ← computeDigest codec parts
  .ok { parts with digest := digest }

/-- The digest of the stored parts is compared with the stored digest. -/
def verifyHash (codec : Codec) (m : HostModuleManifest) : Except HostError Bool := do
  let recomputed ← computeDigest codec m.toSealedParts
  .ok (decide (recomputed = m.digest))

end HostModuleManifest

/-! ### Building a module -/

/-- A module: the manifest and the implementations it attests. -/
structure HostModule (ι : Type) where
  manifest : HostModuleManifest
  handlers : List (String × ι)
  guard : Option ι
  hooks : List (HookDescriptor × ι)
  jobs : List (String × ι)
  deriving DecidableEq

structure HostModuleBuilder (ι : Type) where
  id : String
  version : Nat
  operations : List (OperationDescriptor × ι) := []
  receiptNamespaces : List String := []
  guard : Option (GuardDescriptor × ι) := none
  hooks : List (HookDescriptor × ι) := []
  jobs : List (JobDescriptor × ι) := []
  schemas : List SchemaDescriptor := []
  subscriptions : List SubscriptionDescriptor := []
  eventPayloadBindings : List EventPayloadBinding := []

/-- One registration. -/
inductive Part (ι : Type) where
  | operation (descriptor : OperationDescriptor) (handler : ι)
  | guard (descriptor : GuardDescriptor) (guard : ι)
  | receiptNamespace (name : String)
  | schema (descriptor : SchemaDescriptor)
  | subscription (descriptor : SubscriptionDescriptor)
  | eventPayload (kind : EventKind) (payloadSchemaRef : String)
  | hook (phase : HookPhase) (name : String) (order : Nat) (hook : ι)
  | job (kind : String) (body : ι)

def moduleIdGrammar : IdGrammar where
  maxBytes := 128
  empty := "empty"
  long := "longer than 128 bytes"
  edgeDot := "leading or trailing '.'"
  doubledDot := "doubled '.'"
  foreign := "characters outside [a-z0-9._-]"

def validateModuleId (id : String) : Except HostError Unit :=
  match moduleIdGrammar.reject id with
  | some detail => .error (.moduleCoherence id ("invalid module id: " ++ detail))
  | none => .ok ()

namespace HostModuleBuilder

variable {ι : Type} (codec : Codec)

def new (id : String) (version : Nat) : HostModuleBuilder ι :=
  { id := id, version := version }

def operation (b : HostModuleBuilder ι) (descriptor : OperationDescriptor) (handler : ι) :
    Except HostError (HostModuleBuilder ι) := do
  descriptor.validate.mapError fun error => .moduleCoherence b.id error.display
  insertOrRefuse (fun o => o.1.name)
    (.moduleCoherence b.id ("operation " ++ codec.debug descriptor.name ++ " is declared twice"))
    (fun operations => { b with operations := operations }) (descriptor, handler) b.operations

def mountGuard (b : HostModuleBuilder ι) (descriptor : GuardDescriptor) (guard : ι) :
    Except HostError (HostModuleBuilder ι) :=
  if b.guard.isSome then .error (.moduleCoherence b.id "a module mounts at most one guard")
  else .ok { b with guard := some (descriptor, guard) }

def receiptNamespace (b : HostModuleBuilder ι) (name : String) :
    Except HostError (HostModuleBuilder ι) :=
  if name ∈ b.receiptNamespaces then
    .error (.moduleCoherence b.id
      ("receipt namespace " ++ codec.debug name ++ " is declared twice"))
  else .ok { b with receiptNamespaces := b.receiptNamespaces ++ [name] }

def schema (b : HostModuleBuilder ι) (descriptor : SchemaDescriptor) :
    Except HostError (HostModuleBuilder ι) :=
  insertOrRefuse SchemaDescriptor.identityKey
    (.schemaInvalid descriptor.id.text
      ("schema " ++ codec.debug descriptor.id.text ++ " " ++ toString descriptor.version ++ " (" ++
        descriptor.role.asStr ++ ") is declared twice in module " ++ codec.debug b.id))
    (fun schemas => { b with schemas := schemas }) descriptor b.schemas

def subscription (b : HostModuleBuilder ι) (descriptor : SubscriptionDescriptor) :
    Except HostError (HostModuleBuilder ι) :=
  insertOrRefuse SubscriptionDescriptor.id
    (.subscriptionDuplicateWithinModule b.id descriptor.id)
    (fun subscriptions => { b with subscriptions := subscriptions }) descriptor b.subscriptions

def bindEventPayload (b : HostModuleBuilder ι) (kind : EventKind) (payloadSchemaRef : String) :
    Except HostError (HostModuleBuilder ι) := do
  let binding ← EventPayloadBinding.new kind payloadSchemaRef
  insertOrRefuse EventPayloadBinding.kindRaw
    (.eventPayloadBindingDuplicateWithinModule b.id binding.kindRaw)
    (fun bindings => { b with eventPayloadBindings := bindings }) binding b.eventPayloadBindings

def hook (b : HostModuleBuilder ι) (phase : HookPhase) (name : String) (order : Nat) (hook : ι) :
    HostModuleBuilder ι :=
  { b with hooks := b.hooks ++ [(⟨phase, name, order⟩, hook)] }

def job (b : HostModuleBuilder ι) (kind : String) (body : ι) :
    Except HostError (HostModuleBuilder ι) :=
  insertOrRefuse (fun j => j.1.kind)
    (.moduleCoherence b.id ("supervised-job kind " ++ codec.debug kind ++ " is declared twice"))
    (fun jobs => { b with jobs := jobs }) (⟨kind⟩, body) b.jobs

def register (b : HostModuleBuilder ι) : Part ι → Except HostError (HostModuleBuilder ι)
  | .operation descriptor handler => b.operation codec descriptor handler
  | .guard descriptor guard => b.mountGuard descriptor guard
  | .receiptNamespace name => b.receiptNamespace codec name
  | .schema descriptor => b.schema codec descriptor
  | .subscription descriptor => b.subscription descriptor
  | .eventPayload kind payloadSchemaRef => b.bindEventPayload kind payloadSchemaRef
  | .hook phase name order hook => .ok (b.hook phase name order hook)
  | .job kind body => b.job codec kind body

def isEmpty (b : HostModuleBuilder ι) : Bool :=
  b.operations.isEmpty && b.hooks.isEmpty && b.jobs.isEmpty && b.guard.isNone &&
    b.schemas.isEmpty && b.subscriptions.isEmpty && b.eventPayloadBindings.isEmpty

def rejectHookOrderCollisions (module : String) (hooks : List (HookDescriptor × ι)) :
    Except HostError Unit :=
  match adjacentTwin (fun h => (h.1.phase, h.1.order)) hooks with
  | some twin => .error (.moduleCoherence module
      ("two " ++ twin.1.phase.display ++ " hooks share order " ++ toString twin.1.order ++
        " (ambiguous ordering)"))
  | none => .ok ()

/-- The maps hold their values in key order already. -/
def sealedParts (b : HostModuleBuilder ι) : SealedParts where
  id := b.id
  version := b.version
  operations := b.operations.map Prod.fst
  receiptNamespaces := sortOn (fun name => name) b.receiptNamespaces
  guard := b.guard.map Prod.fst
  hooks := (sortOn (fun h => h.1.orderKey) b.hooks).map Prod.fst
  jobs := b.jobs.map Prod.fst
  schemas := b.schemas
  subscriptions := b.subscriptions
  eventPayloadBindings := b.eventPayloadBindings

def build (b : HostModuleBuilder ι) : Except HostError (HostModule ι) := do
  validateModuleId b.id
  if b.isEmpty then
    .error (.moduleCoherence b.id
      ("module declares no operations, hooks, jobs, guard, schemas, subscriptions, " ++
        "or event payload bindings"))
  else do
    rejectHookOrderCollisions b.id (sortOn (fun h => h.1.orderKey) b.hooks)
    let manifest ← HostModuleManifest.sealParts codec b.sealedParts
    .ok {
      manifest := manifest
      handlers := b.operations.map fun o => (o.1.name, o.2)
      guard := b.guard.map Prod.snd
      hooks := sortOn (fun h => h.1.orderKey) b.hooks
      jobs := b.jobs.map fun j => (j.1.kind, j.2) }

/-- Register the parts one after another and build. -/
def run (id : String) (version : Nat) (parts : List (Part ι)) :
    Except HostError (HostModule ι) := do
  let b ← parts.foldlM (register codec) (new id version)
  b.build codec

end HostModuleBuilder

end Batpak.Hostbat
