/-
Module: Batpak.Bvisor.Planner
Purpose: Planning: classification, the two membranes with the circuit in the shadow of the
  reference, the budgets, and the plan with its identity.
Trusted boundary: the hash, the canonical encoder, and the derived debug renderings
Main exports: PlannerInputs, plannerReference
-/
import Batpak.Bvisor.Boundary
import Batpak.Bvisor.Shadow

namespace Batpak.Bvisor

/-! ### The two membranes -/

def evidenceLaneBits : Nat := 16

def evidenceLaneWidth : Width :=
  ⟨16⟩

structure PlannerInputs where
  enforcement : List (BitVec 8)
  evidenceRequired : BitVec 16
  evidenceAvailable : BitVec 16
  deriving Repr, Inhabited, DecidableEq

def maskEvidence (value : BitVec 16) : BitVec 64 :=
  mask (value.setWidth 64) evidenceLaneBits

def plannerTrace (inputs : PlannerInputs) : List Bool :=
  [inputs.enforcement.all fun e => 1 ≤ (maskCode e).toNat,
    decide (maskEvidence inputs.evidenceRequired &&& ~~~maskEvidence inputs.evidenceAvailable = 0)]

def plannerReference (inputs : PlannerInputs) : AdmissionOutcome :=
  outcomeFromTrace (plannerTrace inputs) ⟨0, 0⟩

def plannerCircuitBuild (reqs : Nat) : Build Outputs := do
  let enforcements ← inputs reqs enforcementWidth
  let required ← input evidenceLaneWidth
  let available ← input evidenceLaneWidth
  let support ← supportCheck enforcements enforcementWidth
  let evidence ← bitsetSubset required available
  let (admitBit, refusalCode) ← composeMembranes [support, evidence]
  return ⟨admitBit, refusalCode, [support, evidence]⟩

def compilePlannerCircuit (reqs : Nat) : Except ProgramError AdmissionProgram :=
  compile (plannerCircuitBuild reqs)

def encodeEvidence (value : BitVec 16) : Lane :=
  encodeLane (value.setWidth 64) evidenceLaneWidth

def encodePlanner (inputs : PlannerInputs) : List Lane :=
  inputs.enforcement.map encodeCode ++
    [encodeEvidence inputs.evidenceRequired, encodeEvidence inputs.evidenceAvailable]

def plannerCircuit (inputs : PlannerInputs) : Except String AdmissionOutcome := do
  let decision ← runCircuit "circuit" (compilePlannerCircuit inputs.enforcement.length)
    (encodePlanner inputs)
  if decision.admitted then return .admitted decision.membranes
  else return .refused decision.refusalCode decision.refusalCode decision.membranes 0 0 0

def plannerShadowCheck (inputs : PlannerInputs) : Except AdmissionDivergence AdmissionOutcome :=
  decideShadow (plannerReference inputs) (plannerCircuit inputs)

/-! ### Texts -/

def EvidenceClaim.debug : EvidenceClaim → String
  | terminalOutcome => "TerminalOutcome"
  | capturedStreams => "CapturedStreams"
  | resourceUsage => "ResourceUsage"
  | allowedActions => "AllowedActions"
  | deniedAttempts => "DeniedAttempts"
  | filesystemDelta => "FilesystemDelta"
  | processTree => "ProcessTree"
  | networkActivity => "NetworkActivity"
  | artifactLineage => "ArtifactLineage"
  | mechanismAttestation => "MechanismAttestation"

/-- The claims in declaration order, as the sorted set lists them. -/
def debugEvidenceSet (set : EvidenceSet) : String :=
  "EvidenceSet(\x7b" ++ String.intercalate ", "
    ((EvidenceClaim.all.filter (· ∈ set)).map EvidenceClaim.debug) ++ "\x7d)"

def debugTrace (trace : List Bool) : String :=
  "[" ++ String.intercalate ", " (trace.map toString) ++ "]"

def AdmissionOutcome.debug : AdmissionOutcome → String
  | admitted trace => "Admitted \x7b trace: " ++ debugTrace trace ++ " \x7d"
  | refused membrane refusalCode trace budgetDimension budgetReason scheduleReason =>
      "Refused \x7b membrane: " ++ toString membrane ++ ", refusal_code: " ++
        toString refusalCode ++ ", trace: " ++ debugTrace trace ++ ", budget_dimension: " ++
        toString budgetDimension ++ ", budget_reason: " ++ toString budgetReason ++
        ", schedule_reason: " ++ toString scheduleReason ++ " \x7d"

def AdmissionDivergence.display : AdmissionDivergence → String
  | outcomeMismatch reference circuit =>
      "admission divergence: reference " ++ reference.debug ++ " != circuit " ++ circuit.debug
  | circuitError reference reason =>
      "admission divergence: circuit failed (" ++ reason ++ ") where reference was " ++
        reference.debug

def EvidenceRequirements.debug (evidence : EvidenceRequirements) : String :=
  "EvidenceRequirements \x7b require_captured_streams: " ++
    toString evidence.requireCapturedStreams ++ ", require_exit_status: " ++
    toString evidence.requireExitStatus ++ " \x7d"

/-! ### Derived minimums -/

/-- `value.max(least)`. -/
def atLeast (value least : BitVec 64) : BitVec 64 :=
  if value < least then least else value

/-- What one host control adds to the floors. -/
def controlMinimums (minimums : DerivedMinimums) : HostControl → DerivedMinimums
  | .captureStreams streams =>
      { minimums with
        handleCount := minimums.handleCount + (BitVec.ofNat 64 streams.stdout.toNat +
          BitVec.ofNat 64 streams.stderr.toNat + BitVec.ofNat 64 streams.stdin.toNat) }
  | .tempRoot _ => { minimums with storageBytes := atLeast minimums.storageBytes 1 }
  | .commitArtifact _ => { minimums with storageBytes := atLeast minimums.storageBytes 1 }
  | .exposePath _ _ access _ =>
      match access with
      | .read => minimums
      | .write => { minimums with storageBytes := atLeast minimums.storageBytes 1 }
      | .readWrite => { minimums with storageBytes := atLeast minimums.storageBytes 1 }
  | .launchWorkload => minimums
  | .discardArtifact => minimums
  | .kill _ _ => minimums
  | .listOutputs => minimums

/-- What one capability adds to the floors. -/
def capabilityMinimums (minimums : DerivedMinimums) : Capability → DerivedMinimums
  | .childSpawn policy =>
      match policy with
      | .denyNewTasks => minimums
      | .allowThreadsWithinBoundary =>
          { minimums with processCount := atLeast minimums.processCount 2 }
      | .allowDescendantsWithinBoundary =>
          { minimums with processCount := atLeast minimums.processCount 2 }
  | .inheritedFds policy =>
      match policy with
      | .none => minimums
      | .only fds =>
          { minimums with
            handleCount := minimums.handleCount + BitVec.ofNat 64 (min fds.length usizeMax) }
  | .network policy =>
      match policy with
      | .denyAll => minimums
      | .allowList _ => { minimums with networkBytes := atLeast minimums.networkBytes 1 }
  | .filesystem _ _ _ _ => minimums
  | .environment _ => minimums

/-- The floors of a launched workload. -/
def launchMinimums (controls : List HostControl) : DerivedMinimums :=
  if .launchWorkload ∈ controls then
    { processCount := 1, wallMicros := 1, cpuMicros := 1, residentBytes := 1, handleCount := 3 }
  else {}

def deriveMinimums (spec : BoundarySpec) : DerivedMinimums :=
  spec.capabilities.foldl capabilityMinimums
    (spec.controls.foldl controlMinimums (launchMinimums spec.controls))

/-! ### Identity -/

structure PlanFingerprint where
  schemaVersion : Nat
  backend : BackendId
  snapshot : BackendProfileSnapshot
  admitted : List AdmittedRequirement
  workload : String
  budgetRequest : String
  admittedBudgets : String
  evidence : String
  deriving DecidableEq

/-- The hash, the canonical encoder at the two types it is used at, and the derived debug
renderings. -/
structure PlanCodec where
  hash : List (BitVec 8) → Digest32
  fingerprintBytes : PlanFingerprint → Except String (List (BitVec 8))
  budgetBytes : BudgetProfile → Except String (List (BitVec 8))
  debugString : String → String
  debugRequirement : BoundaryRequirement → String
  debugWorkload : Workload → String
  debugRequest : BudgetRequirements → String
  debugAdmitted : AdmittedBudgets → String

/-- A stable sort by the rendering of the requirement. -/
def sortAdmitted (codec : PlanCodec) (admitted : List AdmittedRequirement) :
    List AdmittedRequirement :=
  admitted.insertionSort fun a b =>
    codec.debugRequirement a.requirement ≤ codec.debugRequirement b.requirement

def planFingerprint (codec : PlanCodec) (backend : BackendId) (snapshot : BackendProfileSnapshot)
    (admitted : List AdmittedRequirement) (spec : BoundarySpec)
    (admittedBudgets : AdmittedBudgets) : PlanFingerprint where
  schemaVersion := boundaryPlanSchemaVersion
  backend := backend
  snapshot := snapshot
  admitted := sortAdmitted codec admitted
  workload := codec.debugWorkload spec.workload
  budgetRequest := codec.debugRequest spec.budgets
  admittedBudgets := codec.debugAdmitted admittedBudgets
  evidence := spec.evidence.debug

def computePlanId (codec : PlanCodec) (backend : BackendId) (snapshot : BackendProfileSnapshot)
    (admitted : List AdmittedRequirement) (spec : BoundarySpec)
    (admittedBudgets : AdmittedBudgets) : Except String Digest32 := do
  let bytes ← codec.fingerprintBytes
    (planFingerprint codec backend snapshot admitted spec admittedBudgets)
  return codec.hash bytes

def budgetProfileDigest (codec : PlanCodec) (snapshot : BackendProfileSnapshot) :
    Except String Digest32 := do
  let bytes ← codec.budgetBytes snapshot.budget
  return codec.hash bytes

/-! ### Planning -/

section Planning

variable {Profile : Type}

def validateCapabilityPolicies (codec : PlanCodec) : List Capability → Except PlanError Unit
  | [] => .ok ()
  | .environment policy :: rest => do
      policy.validate.mapError fun error => .invalidPolicy (error.display codec.debugString)
      validateCapabilityPolicies codec rest
  | _ :: rest => validateCapabilityPolicies codec rest

def enforcementCode : Enforcement → BitVec 8
  | .unsupported => 0
  | .mediated => 1
  | .enforced => 2

abbrev Classified := List (BoundaryRequirement × SupportVerdict)

/-- The requirements in admission order, capabilities then controls. -/
def BoundarySpec.requirements (spec : BoundarySpec) : List BoundaryRequirement :=
  spec.capabilities.map .capability ++ spec.controls.map .hostControl

def classifyAll (backend : Backend Profile) (profile : Profile) (spec : BoundarySpec) :
    Classified :=
  spec.requirements.map fun req => (req, backend.classify req profile)

def availableEvidence (classified : Classified) : EvidenceSet :=
  classified.foldl (fun available c => available ∪ c.2.evidence) ∅

def plannerInputs (classified : Classified) (required : EvidenceSet) : PlannerInputs where
  enforcement := classified.map fun c => enforcementCode c.2.enforcement
  evidenceRequired := evidenceBits required
  evidenceAvailable := evidenceBits (availableEvidence classified)

def admittedRequirements (backend : Backend Profile) (classified : Classified) :
    List AdmittedRequirement :=
  classified.map fun c => ⟨c.1, c.2.enforcement, backend.mechanism c.1 c.2.enforcement⟩

def buildAdmittedPlan (codec : PlanCodec) (backend : Backend Profile)
    (snapshot : BackendProfileSnapshot) (classified : Classified) (spec : BoundarySpec) :
    Except PlanError BoundaryPlan := do
  let derived := deriveMinimums spec
  let profileDigest ← (budgetProfileDigest codec snapshot).mapError fun error =>
    .profileInsufficient backend.id ("budget profile canonicalization failed: " ++ error)
  let admittedBudgets ← (budgetAdmit spec.budgets snapshot.budget derived profileDigest).mapError
    fun refusal => .budgetRefused backend.id refusal.dimension refusal.failure
  let admitted := admittedRequirements backend classified
  let planId ← (computePlanId codec backend.id snapshot admitted spec admittedBudgets).mapError
    fun error => .profileInsufficient backend.id ("plan canonicalization failed: " ++ error)
  return {
    schemaVersion := boundaryPlanSchemaVersion
    planId := planId
    backend := backend.id
    profile := snapshot
    admitted := admitted
    workload := spec.workload
    budgets := admittedBudgets
    evidence := spec.evidence }

/-- Map the outcome of the reference back to the surface of the planner. -/
def settleOutcome (codec : PlanCodec) (backend : Backend Profile)
    (snapshot : BackendProfileSnapshot) (classified : Classified) (spec : BoundarySpec) :
    AdmissionOutcome → Except PlanError BoundaryPlan
  | .admitted _ => buildAdmittedPlan codec backend snapshot classified spec
  | .refused 1 _ _ _ _ _ =>
      match classified.find? fun c => c.2.enforcement = .unsupported with
      | some (requirement, _) => .error (.unsupported requirement backend.id)
      | none => .error (.shadowDivergence "support refusal without an unsupported requirement")
  | .refused 2 _ _ _ _ _ =>
      .error (.evidenceUnsatisfiable backend.id ("required evidence " ++
        debugEvidenceSet spec.evidence.requiredClaims ++
        " is not a subset of admitted evidence " ++
        debugEvidenceSet (availableEvidence classified)))
  | .refused membrane _ _ _ _ _ =>
      .error (.shadowDivergence ("unexpected refusal membrane " ++ toString membrane))

/-- Admission against a backend that was found. -/
def planWith (codec : PlanCodec) (backend : Backend Profile) (spec : BoundarySpec) :
    Except PlanError BoundaryPlan := do
  validateCapabilityPolicies codec spec.capabilities
  let snapshot := backend.probe
  let profile := backend.profile snapshot
  let classified := classifyAll backend profile spec
  let inputs := plannerInputs classified spec.evidence.requiredClaims
  let outcome ← (plannerShadowCheck inputs).mapError fun divergence =>
    .shadowDivergence divergence.display
  settleOutcome codec backend snapshot classified spec outcome

def plan (codec : PlanCodec) (registry : BackendRegistry Profile) (spec : BoundarySpec)
    (backend : BackendId) : Except PlanError BoundaryPlan :=
  match registry.backend backend with
  | none => .error (.unknownBackend backend)
  | some found => planWith codec found spec

end Planning

end Batpak.Bvisor
