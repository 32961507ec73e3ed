/-
Module: Batpak.Bvisor.Budget
Purpose: The seven budget dimensions with their three authorities: what is required, what the
  machine provides, and the adjudicated contract, admitted in two phases.
Trusted boundary: none
Main exports: Enforcement, EvidenceSet
-/
import Batpak.Bvisor.Lowering

namespace Batpak.Bvisor

/-! ### Enforcement and evidence -/

inductive Enforcement where
  | enforced
  | mediated
  | unsupported
  deriving Repr, Inhabited, DecidableEq

inductive EvidenceClaim where
  | terminalOutcome
  | capturedStreams
  | resourceUsage
  | allowedActions
  | deniedAttempts
  | filesystemDelta
  | processTree
  | networkActivity
  | artifactLineage
  | mechanismAttestation
  deriving Repr, Inhabited, DecidableEq

abbrev EvidenceSet := Finset EvidenceClaim

/-- The bit of a claim in the admission bitsets. -/
def evidenceBit : EvidenceClaim → Nat
  | .terminalOutcome => 0
  | .capturedStreams => 1
  | .resourceUsage => 2
  | .allowedActions => 3
  | .deniedAttempts => 4
  | .filesystemDelta => 5
  | .processTree => 6
  | .networkActivity => 7
  | .artifactLineage => 8
  | .mechanismAttestation => 9

/-- Every claim, in declaration order. -/
def EvidenceClaim.all : List EvidenceClaim :=
  [.terminalOutcome, .capturedStreams, .resourceUsage, .allowedActions, .deniedAttempts,
    .filesystemDelta, .processTree, .networkActivity, .artifactLineage, .mechanismAttestation]

/-- One bit per claim of the set. -/
def evidenceBits (set : EvidenceSet) : BitVec 16 :=
  (EvidenceClaim.all.filter (· ∈ set)).foldl (fun bits claim => bits ||| 1#16 <<< evidenceBit claim) 0

/-! ### The three authorities -/

inductive MinGuarantee where
  | mediated
  | enforced
  deriving Repr, Inhabited, DecidableEq

/-- The dimensions in canonical order. -/
inductive BudgetDimension where
  | wall
  | cpu
  | residentMemory
  | processCount
  | handleCount
  | storage
  | network
  deriving Repr, Inhabited, DecidableEq

structure BudgetRequest where
  limit : BitVec 64
  guarantee : MinGuarantee
  evidence : EvidenceSet
  deriving DecidableEq

structure BudgetRequirements where
  wallMicros : BudgetRequest
  cpuMicros : BudgetRequest
  residentBytes : BudgetRequest
  processCount : BudgetRequest
  handleCount : BudgetRequest
  storageBytes : BudgetRequest
  networkBytes : BudgetRequest
  deriving DecidableEq

structure BudgetAvailability where
  available : BitVec 64
  enforcement : Enforcement
  evidence : EvidenceSet
  mechanism : String
  deriving DecidableEq

structure BudgetProfile where
  wallMicros : BudgetAvailability
  cpuMicros : BudgetAvailability
  residentBytes : BudgetAvailability
  processCount : BudgetAvailability
  handleCount : BudgetAvailability
  storageBytes : BudgetAvailability
  networkBytes : BudgetAvailability
  deriving DecidableEq

structure AdmittedBudget where
  effectiveLimit : BitVec 64
  requiredGuarantee : MinGuarantee
  selectedGuarantee : Enforcement
  requiredEvidence : EvidenceSet
  promisedEvidence : EvidenceSet
  mechanism : String
  profileDigest : Digest32
  deriving DecidableEq

structure AdmittedBudgets where
  wallMicros : AdmittedBudget
  cpuMicros : AdmittedBudget
  residentBytes : AdmittedBudget
  processCount : AdmittedBudget
  handleCount : AdmittedBudget
  storageBytes : AdmittedBudget
  networkBytes : AdmittedBudget
  deriving DecidableEq

/-- The floor the structure of a spec puts under each limit. -/
structure DerivedMinimums where
  wallMicros : BitVec 64 := 0
  cpuMicros : BitVec 64 := 0
  residentBytes : BitVec 64 := 0
  processCount : BitVec 64 := 0
  handleCount : BitVec 64 := 0
  storageBytes : BitVec 64 := 0
  networkBytes : BitVec 64 := 0
  deriving Repr, DecidableEq

/-! ### Admission -/

inductive BudgetFailure where
  | belowDerivedMinimum
  | capacityExceeded
  | guaranteeInsufficient
  | evidenceMissing
  deriving Repr, Inhabited, DecidableEq

structure BudgetRefusal where
  dimension : BudgetDimension
  failure : BudgetFailure
  deriving Repr, DecidableEq

def enforcementStrength : Enforcement → BitVec 8
  | .unsupported => 0
  | .mediated => 1
  | .enforced => 2

def guaranteeStrength : MinGuarantee → BitVec 8
  | .mediated => 1
  | .enforced => 2

/-- Capacity, then guarantee, then evidence. -/
def adjudicateDimension (request : BudgetRequest) (availability : BudgetAvailability)
    (profileDigest : Digest32) : Except BudgetFailure AdmittedBudget :=
  if availability.available < request.limit then .error .capacityExceeded
  else if enforcementStrength availability.enforcement < guaranteeStrength request.guarantee then
    .error .guaranteeInsufficient
  else if ¬request.evidence ⊆ availability.evidence then .error .evidenceMissing
  else .ok {
    effectiveLimit := request.limit
    requiredGuarantee := request.guarantee
    selectedGuarantee := availability.enforcement
    requiredEvidence := request.evidence
    promisedEvidence := availability.evidence
    mechanism := availability.mechanism
    profileDigest := profileDigest }

/-- The limits against the derived minimums, in canonical order. -/
def intrinsicChecks (requirements : BudgetRequirements) (derived : DerivedMinimums) :
    List (BudgetDimension × BitVec 64 × BitVec 64) :=
  [(.wall, requirements.wallMicros.limit, derived.wallMicros),
    (.cpu, requirements.cpuMicros.limit, derived.cpuMicros),
    (.residentMemory, requirements.residentBytes.limit, derived.residentBytes),
    (.processCount, requirements.processCount.limit, derived.processCount),
    (.handleCount, requirements.handleCount.limit, derived.handleCount),
    (.storage, requirements.storageBytes.limit, derived.storageBytes),
    (.network, requirements.networkBytes.limit, derived.networkBytes)]

def intrinsicCheck : List (BudgetDimension × BitVec 64 × BitVec 64) → Except BudgetRefusal Unit
  | [] => .ok ()
  | (dimension, limit, minimum) :: rest =>
      if limit < minimum then .error ⟨dimension, .belowDerivedMinimum⟩ else intrinsicCheck rest

def adjudicate (profileDigest : Digest32) (dimension : BudgetDimension) (request : BudgetRequest)
    (availability : BudgetAvailability) : Except BudgetRefusal AdmittedBudget :=
  match adjudicateDimension request availability profileDigest with
  | .ok admitted => .ok admitted
  | .error failure => .error ⟨dimension, failure⟩

/-- Every dimension against its derived minimum first, then every dimension against the
profile. -/
def budgetAdmit (requirements : BudgetRequirements) (profile : BudgetProfile)
    (derived : DerivedMinimums) (profileDigest : Digest32) :
    Except BudgetRefusal AdmittedBudgets := do
  intrinsicCheck (intrinsicChecks requirements derived)
  let wall ← adjudicate profileDigest .wall requirements.wallMicros profile.wallMicros
  let cpu ← adjudicate profileDigest .cpu requirements.cpuMicros profile.cpuMicros
  let resident ← adjudicate profileDigest .residentMemory requirements.residentBytes
    profile.residentBytes
  let process ← adjudicate profileDigest .processCount requirements.processCount
    profile.processCount
  let handle ← adjudicate profileDigest .handleCount requirements.handleCount profile.handleCount
  let storage ← adjudicate profileDigest .storage requirements.storageBytes profile.storageBytes
  let network ← adjudicate profileDigest .network requirements.networkBytes profile.networkBytes
  return ⟨wall, cpu, resident, process, handle, storage, network⟩

end Batpak.Bvisor
