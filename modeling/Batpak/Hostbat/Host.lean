/-
Module: Batpak.Hostbat.Host
Purpose: Mounting modules and building a host. Guards, sinks, the effect backend, jobs and the
  supervisor are left out.
Trusted boundary: the canonical encoder and the hash are functions
Main exports: HostBuilder, HostBuilder.mount
-/
import Batpak.Hostbat.Module

namespace Batpak.Hostbat

open Batpak.Util
open Batpak.Syncbat (OperationDescriptor OperationEffectRow)

/-! ### Views -/

structure CompositionSchemaView where
  id : String
  version : Nat
  role : String
  encoding : Digest
  ownerModule : String
  deriving DecidableEq

structure CompositionView where
  domain : String
  schemas : List CompositionSchemaView
  deriving DecidableEq

structure SchemaIdentityView where
  id : String
  version : Nat
  role : String
  encoding : Digest
  deriving DecidableEq

structure InterfaceOperationView where
  moduleId : String
  name : String
  inputSchema : SchemaIdentityView
  outputSchema : SchemaIdentityView
  receiptKind : String
  receiptSchema : SchemaIdentityView
  deriving DecidableEq

structure BackpressureView where
  kind : String
  capacity : Option Nat
  deriving DecidableEq

structure InterfaceSubscriptionView where
  moduleId : String
  id : String
  source : SubscriptionSource
  payloadSchema : SchemaIdentityView
  delivery : String
  backpressure : BackpressureView
  deriving DecidableEq

structure InterfaceEventPayloadBindingView where
  moduleId : String
  kind : Nat
  payloadSchema : SchemaIdentityView
  deriving DecidableEq

structure InterfaceView where
  domain : String
  viewSchemaVersion : Nat
  wireProtocolVersion : String
  wireEncodingVersion : String
  subscriptionWireRequires : String
  operations : List InterfaceOperationView
  subscriptions : List InterfaceSubscriptionView
  eventPayloadBindings : List InterfaceEventPayloadBindingView
  exportedEventPayloads : List SchemaIdentityView
  deriving DecidableEq

structure FingerprintEntry where
  moduleId : String
  moduleDigest : Digest
  deriving DecidableEq

structure FingerprintView where
  domain : String
  modules : List FingerprintEntry
  deriving DecidableEq

/-- The canonical encoder at the types a host needs besides. -/
structure HostCodec extends Codec where
  compositionBytes : CompositionView → Except String Bytes
  interfaceBytes : InterfaceView → Except String Bytes
  fingerprintBytes : FingerprintView → Except String Bytes

/-! ### Aggregating schemas -/

/-- A schema and the module that declared it first. -/
structure CompositionSchema where
  descriptor : SchemaDescriptor
  ownerModule : String
  deriving DecidableEq

structure HostCompositionManifest where
  schemas : List CompositionSchema
  digest : Digest
  deriving DecidableEq

def CompositionSchema.key (e : CompositionSchema) : String ×ₗ ℕ ×ₗ ℕ :=
  e.descriptor.identityKey

/-- A second declaration must have the same content hash, and then changes nothing. -/
def addSchema (module : String) (entries : List CompositionSchema) (d : SchemaDescriptor) :
    Except HostError (List CompositionSchema) :=
  match entries.find? fun e => e.key = d.identityKey with
  | some existing =>
      if existing.descriptor.encoding ≠ d.encoding then
        .error (.schemaCollision {
          schema := d.id.text
          version := d.version
          role := d.role.asStr
          firstModule := existing.ownerModule
          firstEncoding := existing.descriptor.encoding
          secondModule := module
          secondEncoding := d.encoding })
      else .ok entries
  | none => .ok (insertOn CompositionSchema.key ⟨d, module⟩ entries)

def compositionDigestDomain : String := "hostbat.composition.schema.v1"

def CompositionSchema.view (e : CompositionSchema) : CompositionSchemaView where
  id := e.descriptor.id.text
  version := e.descriptor.version
  role := e.descriptor.role.asStr
  encoding := e.descriptor.encoding
  ownerModule := e.ownerModule

def compositionView (entries : List CompositionSchema) : CompositionView :=
  ⟨compositionDigestDomain, entries.map CompositionSchema.view⟩

def sealSchemas (codec : HostCodec) (entries : List CompositionSchema) :
    Except HostError HostCompositionManifest := do
  let digest ← canonicalDigest codec.computeHash
    (codec.compositionBytes (compositionView entries))
  .ok ⟨entries, digest⟩

/-! ### Mounting -/

structure HostBuilder (ι : Type) where
  modules : List (HostModule ι) := []
  moduleIds : List String := []
  operationEffectRows : List (String × OperationEffectRow) := []
  receiptNamespaces : List (String × String) := []
  jobOwners : List (String × String) := []
  subscriptionOwners : List (String × String) := []
  eventPayloadBindings : List (Nat × String × String) := []
  schemas : List CompositionSchema := []

def refuseOperation (module : String) (existingRow : OperationEffectRow)
    (d : OperationDescriptor) : HostError :=
  if existingRow ≠ d.effectRow then .effectConflict d.name module
  else .duplicateOperation d.name module

def refuseBinding (module : String) (first : String × String) (b : EventPayloadBinding) :
    HostError :=
  if first.2 = b.payloadSchemaRef then .duplicateEventPayloadBinding b.kindRaw module
  else .eventPayloadBindingConflict b.kindRaw first.1 first.2 module b.payloadSchemaRef

section Host

variable {ι : Type}

def HostBuilder.mount (codec : HostCodec) (b : HostBuilder ι) (m : HostModule ι) :
    Except HostError (HostBuilder ι) := do
  let verified ← m.manifest.verifyHash codec.toCodec
  if verified = false then .error (.moduleHashMismatch m.manifest.id)
  else if m.manifest.id ∈ b.moduleIds then .error (.duplicateModuleId m.manifest.id)
  else do
    let id := m.manifest.id
    let rows ← m.manifest.operations.foldlM
      (claim (fun d => (d.name, d.effectRow)) (refuseOperation id)) b.operationEffectRows
    let namespaces ← m.manifest.receiptNamespaces.foldlM
      (claim (fun name => (name, id)) fun _ name => .duplicateReceiptNamespace name id)
      b.receiptNamespaces
    let jobs ← m.manifest.jobs.foldlM
      (claim (fun j => (j.kind, id)) fun _ j => .duplicateJobKind j.kind id) b.jobOwners
    let subscriptions ← m.manifest.subscriptions.foldlM
      (claim (fun s => (s.id, id)) fun _ s => .duplicateSubscriptionId s.id id)
      b.subscriptionOwners
    let bindings ← m.manifest.eventPayloadBindings.foldlM
      (claim (fun e => (e.kindRaw, id, e.payloadSchemaRef)) (refuseBinding id))
      b.eventPayloadBindings
    let schemas ← m.manifest.schemas.foldlM (addSchema id) b.schemas
    .ok {
      modules := b.modules ++ [m]
      moduleIds := b.moduleIds ++ [id]
      operationEffectRows := rows
      receiptNamespaces := namespaces
      jobOwners := jobs
      subscriptionOwners := subscriptions
      eventPayloadBindings := bindings
      schemas := schemas }

/-! ### Resolving schema references -/

def HostCompositionManifest.matching (c : HostCompositionManifest) (reference : String)
    (role : SchemaRole) : List SchemaDescriptor :=
  (c.schemas.map CompositionSchema.descriptor).filter fun s =>
    s.id.text = reference ∧ s.role = role

def schemaIdentityView (s : SchemaDescriptor) : SchemaIdentityView :=
  ⟨s.id.text, s.version, s.role.asStr, s.encoding⟩

/-- A reference must name one schema of the role, whatever its version. -/
def resolveSchemaRef (module : String) (operation : Option String) (reference : String)
    (role : SchemaRole) (c : HostCompositionManifest) : Except HostError SchemaIdentityView :=
  match c.matching reference role with
  | [descriptor] => .ok (schemaIdentityView descriptor)
  | [] => .error (.schemaReferenceMissing module operation reference role.asStr)
  | many => .error (.schemaReferenceAmbiguous module operation reference role.asStr
      (many.map SchemaDescriptor.version))

def validateSubscriptionPayloadSchemas (modules : List (HostModule ι))
    (c : HostCompositionManifest) : Except HostError Unit :=
  modules.forM fun m => m.manifest.subscriptions.forM fun s =>
    match c.matching s.payloadSchemaRef s.requiredPayloadRole with
    | [_] => .ok ()
    | _ => .error (.subscriptionPayloadSchemaMissing m.manifest.id s.id s.payloadSchemaRef
        s.requiredPayloadRole.asStr)

def validateEventPayloadBindings (modules : List (HostModule ι))
    (c : HostCompositionManifest) : Except HostError Unit :=
  modules.forM fun m => m.manifest.eventPayloadBindings.forM fun b =>
    match c.matching b.payloadSchemaRef .eventPayload with
    | [_] => .ok ()
    | _ => .error (.eventPayloadBindingSchemaMissing m.manifest.id b.kindRaw b.payloadSchemaRef)

/-! ### Fingerprints -/

def hostFingerprintDomain : String := "hostbat.host.v1"

def fingerprintView (modules : List (HostModule ι)) : FingerprintView :=
  ⟨hostFingerprintDomain, sortOn FingerprintEntry.moduleId
    (modules.map fun m => ⟨m.manifest.id, m.manifest.digest⟩)⟩

def computeFingerprint (codec : HostCodec) (modules : List (HostModule ι)) :
    Except HostError Digest :=
  canonicalDigest codec.computeHash (codec.fingerprintBytes (fingerprintView modules))

def operationView (module : String) (c : HostCompositionManifest) (d : OperationDescriptor) :
    Except HostError InterfaceOperationView := do
  let inputSchema ← resolveSchemaRef module (some d.name) d.inputSchemaRef .operationInput c
  let outputSchema ← resolveSchemaRef module (some d.name) d.outputSchemaRef .operationOutput c
  let receiptSchema ← resolveSchemaRef module (some d.name) d.receiptKind .receiptPayload c
  .ok ⟨module, d.name, inputSchema, outputSchema, d.receiptKind, receiptSchema⟩

def backpressureView : BackpressurePolicy → BackpressureView
  | .boundedQueue capacity => ⟨(BackpressurePolicy.boundedQueue capacity).kind, some capacity⟩

def subscriptionView (module : String) (c : HostCompositionManifest)
    (s : SubscriptionDescriptor) : Except HostError InterfaceSubscriptionView := do
  let payloadSchema ← resolveSchemaRef module none s.payloadSchemaRef s.requiredPayloadRole c
  .ok ⟨module, s.id, s.source, payloadSchema, s.delivery.asStr, backpressureView s.backpressure⟩

def eventPayloadBindingView (module : String) (c : HostCompositionManifest)
    (b : EventPayloadBinding) : Except HostError InterfaceEventPayloadBindingView := do
  let payloadSchema ← resolveSchemaRef module none b.payloadSchemaRef .eventPayload c
  .ok ⟨module, b.kindRaw, payloadSchema⟩

/-- What one module adds to the client-visible interface. -/
structure ModuleInterface where
  operations : List InterfaceOperationView
  subscriptions : List InterfaceSubscriptionView
  eventPayloadBindings : List InterfaceEventPayloadBindingView

def moduleInterface (c : HostCompositionManifest) (m : HostModule ι) :
    Except HostError ModuleInterface := do
  let operations ← m.manifest.operations.mapM (operationView m.manifest.id c)
  let subscriptions ← m.manifest.subscriptions.mapM (subscriptionView m.manifest.id c)
  let bindings ← m.manifest.eventPayloadBindings.mapM (eventPayloadBindingView m.manifest.id c)
  .ok ⟨operations, subscriptions, bindings⟩

def interfaceDigestDomain : String := "hostbat.interface.v5"
def interfaceViewSchemaVersion : Nat := 5
def wireProtocolVersion : String := "NETBAT/1"
def wireEncodingVersion : String := "named-field-msgpack:v1"
def subscriptionWireRequires : String := "NETBAT/2-streaming"

def exportedEventPayloads (c : HostCompositionManifest) : List SchemaIdentityView :=
  sortOn (fun v => toLex (v.id, v.version))
    (((c.schemas.map CompositionSchema.descriptor).filter fun s =>
      s.role = .eventPayload).map schemaIdentityView)

/-- Every list is sorted by module and then by name, id or kind. -/
def interfaceView (parts : List ModuleInterface) (c : HostCompositionManifest) :
    InterfaceView where
  domain := interfaceDigestDomain
  viewSchemaVersion := interfaceViewSchemaVersion
  wireProtocolVersion := wireProtocolVersion
  wireEncodingVersion := wireEncodingVersion
  subscriptionWireRequires := subscriptionWireRequires
  operations := sortOn (fun v => toLex (v.moduleId, v.name)) (parts.flatMap (·.operations))
  subscriptions := sortOn (fun v => toLex (v.moduleId, v.id)) (parts.flatMap (·.subscriptions))
  eventPayloadBindings := sortOn (fun v => toLex (v.moduleId, v.kind))
    (parts.flatMap (·.eventPayloadBindings))
  exportedEventPayloads := exportedEventPayloads c

def computeInterfaceFingerprint (codec : HostCodec) (modules : List (HostModule ι))
    (c : HostCompositionManifest) : Except HostError Digest := do
  let parts ← modules.mapM (moduleInterface c)
  canonicalDigest codec.computeHash (codec.interfaceBytes (interfaceView parts c))

/-! ### Lowering -/

/-- The operations of the runtime: descriptors and handlers by name. -/
structure CoreBuilder (ι : Type) where
  descriptors : List OperationDescriptor := []
  handlers : List (String × ι) := []

def CoreBuilder.registerBoxed (c : CoreBuilder ι) (d : OperationDescriptor) (handler : ι) :
    Except BuildError (CoreBuilder ι) := do
  d.validate.mapError fun error => .invalidOperation d.name error.display
  let descriptors ← insertOrRefuse OperationDescriptor.name (.duplicateOperation d.name)
    (fun descriptors => descriptors) d c.descriptors
  let handlers ← insertOrRefuse Prod.fst (.duplicateHandler d.name)
    (fun handlers => handlers) (d.name, handler) c.handlers
  .ok ⟨descriptors, handlers⟩

/-- Both tables must have the same names. -/
def CoreBuilder.build (c : CoreBuilder ι) : Except BuildError (CoreBuilder ι) :=
  match c.descriptors.find? fun d => d.name ∉ c.handlers.map Prod.fst with
  | some d => .error (.missingHandler d.name)
  | none =>
      match c.handlers.find? fun h => h.1 ∉ c.descriptors.map OperationDescriptor.name with
      | some h => .error (.missingDescriptor h.1)
      | none => .ok c

structure HostHook (ι : Type) where
  module : String
  descriptor : HookDescriptor
  hook : ι
  deriving DecidableEq

/-- Order, module, name. -/
def HostHook.orderKey (h : HostHook ι) : ℕ ×ₗ String ×ₗ String :=
  toLex (h.descriptor.order, toLex (h.module, h.descriptor.name))

structure LoweredModules (ι : Type) where
  core : CoreBuilder ι := {}
  startup : List (HostHook ι) := []
  shutdown : List (HostHook ι) := []
  operationDescriptors : List OperationDescriptor := []
  subscriptions : List (String × SubscriptionDescriptor) := []
  eventPayloadBindings : List (String × EventPayloadBinding) := []

/-- A handler is taken out of the module's table and registered. -/
def lowerOperation (codec : HostCodec) (module : String) (s : List (String × ι) × CoreBuilder ι)
    (d : OperationDescriptor) : Except HostError (List (String × ι) × CoreBuilder ι) :=
  match s.1.lookup d.name with
  | none => .error (.moduleCoherence module
      ("operation " ++ codec.debug d.name ++ " has no handler"))
  | some handler => do
      let core ← (s.2.registerBoxed d handler).mapError HostError.build
      .ok (s.1.filter fun h => h.1 ≠ d.name, core)

def hooksIn (phase : HookPhase) (m : HostModule ι) : List (HostHook ι) :=
  (m.hooks.filter fun h => h.1.phase = phase).map fun h => ⟨m.manifest.id, h.1, h.2⟩

def lowerModule (codec : HostCodec) (s : LoweredModules ι) (m : HostModule ι) :
    Except HostError (LoweredModules ι) := do
  let lowered ← m.manifest.operations.foldlM (lowerOperation codec m.manifest.id)
    (m.handlers, s.core)
  .ok {
    core := lowered.2
    startup := s.startup ++ hooksIn .startup m
    shutdown := s.shutdown ++ hooksIn .shutdown m
    operationDescriptors := s.operationDescriptors ++ m.manifest.operations
    subscriptions := s.subscriptions ++ m.manifest.subscriptions.map fun d => (m.manifest.id, d)
    eventPayloadBindings := s.eventPayloadBindings ++
      m.manifest.eventPayloadBindings.map fun b => (m.manifest.id, b) }

def lowerModules (codec : HostCodec) (modules : List (HostModule ι)) :
    Except HostError (LoweredModules ι) :=
  modules.foldlM (lowerModule codec) {}

/-! ### Building -/

structure Host (ι : Type) where
  core : CoreBuilder ι
  fingerprint : Digest
  interfaceFingerprint : Digest
  operations : List OperationDescriptor
  subscriptions : List (String × SubscriptionDescriptor)
  eventPayloadBindings : List (String × EventPayloadBinding)
  compositionSchemas : HostCompositionManifest
  startup : List (HostHook ι)
  shutdown : List (HostHook ι)

def HostBuilder.build (codec : HostCodec) (b : HostBuilder ι) : Except HostError (Host ι) :=
  if b.modules.isEmpty then .error .emptyHost
  else do
    let fingerprint ← computeFingerprint codec b.modules
    let composition ← sealSchemas codec b.schemas
    validateSubscriptionPayloadSchemas b.modules composition
    validateEventPayloadBindings b.modules composition
    let interfaceFingerprint ← computeInterfaceFingerprint codec b.modules composition
    let lowered ← lowerModules codec b.modules
    let core ← lowered.core.build.mapError HostError.build
    .ok {
      core := core
      fingerprint := fingerprint
      interfaceFingerprint := interfaceFingerprint
      operations := sortOn OperationDescriptor.name lowered.operationDescriptors
      subscriptions := sortOn (fun s => toLex (s.1, s.2.id)) lowered.subscriptions
      eventPayloadBindings :=
        sortOn (fun b => toLex (b.1, b.2.kindRaw)) lowered.eventPayloadBindings
      compositionSchemas := composition
      startup := sortOn HostHook.orderKey lowered.startup
      shutdown := sortOn HostHook.orderKey lowered.shutdown }

/-- Mount the modules in the given order and build. -/
def compose (codec : HostCodec) (modules : List (HostModule ι)) : Except HostError (Host ι) := do
  let b ← modules.foldlM (HostBuilder.mount codec) {}
  b.build codec

end Host

end Batpak.Hostbat
