/-
Module: Batpak.Bvisor.Boundary
Purpose: The request and the plan: guest capabilities with the gate on environment policies,
  host controls, the spec, what a backend answers, and the admitted plan with its errors.
Trusted boundary: the derived debug rendering of a string
Main exports: Capability, EnvPolicy.validate
-/
import Batpak.Bvisor.Budget
import Batpak.Bvisor.Schedule
import Std.Data.ExtTreeMap.Lemmas

namespace Batpak.Bvisor

/-! ### Capabilities -/

inductive FsAccess where
  | read
  | write
  | readWrite
  deriving Repr, Inhabited, DecidableEq

inductive FsConfinement where
  | declaredRootsOnly
  deriving Repr, Inhabited, DecidableEq

structure PathSet where
  roots : List String
  deriving Repr, Inhabited, DecidableEq

structure NetDest where
  host : String
  port : BitVec 16
  deriving Repr, Inhabited, DecidableEq

inductive NetPolicy where
  | denyAll
  | allowList (destinations : List NetDest)
  deriving Repr, Inhabited, DecidableEq

inductive SpawnPolicy where
  | denyNewTasks
  | allowThreadsWithinBoundary
  | allowDescendantsWithinBoundary
  deriving Repr, Inhabited, DecidableEq

inductive FdPolicy where
  | none
  | only (fds : List (BitVec 32))
  deriving Repr, Inhabited, DecidableEq

/-- An opaque reference to a leased secret. -/
structure SecretRef where
  id : String
  deriving Repr, Inhabited, DecidableEq

inductive EnvSource where
  | literal (value : String)
  | secretLease (lease : SecretRef)
  deriving Repr, Inhabited, DecidableEq

structure EnvEntry where
  name : String
  source : EnvSource
  deriving Repr, Inhabited, DecidableEq

inductive EnvPolicy where
  | exact (entries : List EnvEntry)
  deriving Repr, Inhabited, DecidableEq

inductive Capability where
  | filesystem (access : FsAccess) (scope : PathSet) (recursive : Bool)
      (confinement : FsConfinement)
  | network (policy : NetPolicy)
  | childSpawn (policy : SpawnPolicy)
  | environment (policy : EnvPolicy)
  | inheritedFds (policy : FdPolicy)
  deriving Repr, Inhabited, DecidableEq

/-! ### The gate on environment policies -/

def maxEnvEntries : Nat := 256

def maxEnvTotalBytes : Nat := 128 * 1024

inductive EnvPolicyError where
  | emptyName
  | nameHasReservedByte (name : String) (byte : BitVec 8)
  | valueHasNul (name : String)
  | duplicateName (name : String)
  | tooManyEntries (found : Nat)
  | tooManyBytes (found : Nat)
  deriving Repr, Inhabited, DecidableEq

/-- `{byte:#04x}`. -/
def hexByte (byte : BitVec 8) : String :=
  "0x" ++ String.ofList [Nat.digitChar (byte.toNat / 16), Nat.digitChar (byte.toNat % 16)]

/-- The text of an error; `debug` quotes a string. -/
def EnvPolicyError.display (debug : String → String) : EnvPolicyError → String
  | emptyName => "an environment variable name is empty"
  | nameHasReservedByte name byte =>
      "environment name " ++ debug name ++ " contains the reserved byte " ++ hexByte byte ++
        " (= or NUL)"
  | valueHasNul name => "environment value for " ++ debug name ++ " contains a NUL byte"
  | duplicateName name => "environment name " ++ debug name ++ " is declared more than once"
  | tooManyEntries found =>
      "environment declares " ++ toString found ++ " entries, exceeding the cap " ++
        toString maxEnvEntries
  | tooManyBytes found =>
      "environment totals " ++ toString found ++ " bytes, exceeding the cap " ++
        toString maxEnvTotalBytes

/-- Saturating addition of lengths. -/
def addLength (total : Nat) (text : String) : Nat :=
  min (total + text.utf8ByteSize) usizeMax

/-- The first `=` or NUL of a name. Both are single bytes of the encoding, and no other
character has them among its bytes. -/
def reservedByte (name : String) : Option (BitVec 8) :=
  (name.toList.find? fun c => c = '=' ∨ c = '\x00').map fun c => BitVec.ofNat 8 c.toNat

namespace EnvPolicy

/-- The checks of one entry in order, then the next ones. The result is the size of the
table. -/
def checkEntries : Nat → List String → List EnvEntry → Except EnvPolicyError Nat
  | total, _, [] => .ok total
  | total, seen, entry :: rest =>
      if entry.name = "" then .error .emptyName
      else
        match reservedByte entry.name with
        | some byte => .error (.nameHasReservedByte entry.name byte)
        | none =>
            if entry.name ∈ seen then .error (.duplicateName entry.name)
            else
              match entry.source with
              | .literal value =>
                  if '\x00' ∈ value.toList then .error (.valueHasNul entry.name)
                  else
                    checkEntries (addLength (addLength total entry.name) value)
                      (entry.name :: seen) rest
              | .secretLease lease =>
                  checkEntries (addLength (addLength total entry.name) lease.id)
                    (entry.name :: seen) rest

def validate : EnvPolicy → Except EnvPolicyError Unit
  | exact entries =>
      if maxEnvEntries < entries.length then .error (.tooManyEntries entries.length)
      else do
        let total ← checkEntries 0 [] entries
        if maxEnvTotalBytes < total then .error (.tooManyBytes total) else .ok ()

end EnvPolicy

/-! ### Host controls -/

inductive PathView where
  | privateToBoundary
  deriving Repr, Inhabited, DecidableEq

inductive CommitDurability where
  | atomic
  | durable
  | bestEffortDurable
  deriving Repr, Inhabited, DecidableEq

inductive KillTarget where
  | runTree
  deriving Repr, Inhabited, DecidableEq

inductive KillGuarantee where
  | atomic
  | bestEffortAllowed
  deriving Repr, Inhabited, DecidableEq

structure StdStreams where
  stdout : Bool
  stderr : Bool
  stdin : Bool
  deriving Repr, Inhabited, DecidableEq

inductive HostControl where
  | launchWorkload
  | captureStreams (streams : StdStreams)
  | tempRoot (visibility : PathView)
  | exposePath (source dest : String) (access : FsAccess) (view : PathView)
  | commitArtifact (durability : CommitDurability)
  | discardArtifact
  | kill (target : KillTarget) (guarantee : KillGuarantee)
  | listOutputs
  deriving Repr, Inhabited, DecidableEq

/-! ### The request -/

inductive BoundaryRequirement where
  | capability (capability : Capability)
  | hostControl (control : HostControl)
  deriving Repr, Inhabited, DecidableEq

inductive Workload where
  | process (exe : String) (args : List String)
  | wasm (moduleRef : String)
  deriving Repr, Inhabited, DecidableEq

structure EvidenceRequirements where
  requireCapturedStreams : Bool := false
  requireExitStatus : Bool := false
  deriving Repr, Inhabited, DecidableEq

def EvidenceRequirements.requiredClaims (evidence : EvidenceRequirements) : EvidenceSet :=
  (if evidence.requireCapturedStreams then {.capturedStreams} else ∅) ∪
    if evidence.requireExitStatus then {.terminalOutcome} else ∅

structure BoundarySpec where
  workload : Workload
  capabilities : List Capability
  controls : List HostControl
  budgets : BudgetRequirements
  evidence : EvidenceRequirements
  deriving DecidableEq

/-! ### What a backend answers -/

abbrev BackendId := String

structure SupportVerdict where
  enforcement : Enforcement
  evidence : EvidenceSet
  deriving DecidableEq

/-- The raw probe facts of a machine. -/
structure BackendProfileSnapshot where
  backend : BackendId
  probed : Std.ExtTreeMap String String compare
  budget : BudgetProfile
  deriving DecidableEq

/-- A backend as the planner sees it, over the type of its typed profiles. -/
structure Backend (Profile : Type) where
  id : BackendId
  probe : BackendProfileSnapshot
  profile : BackendProfileSnapshot → Profile
  classify : BoundaryRequirement → Profile → SupportVerdict
  mechanism : BoundaryRequirement → Enforcement → String

structure BackendRegistry (Profile : Type) where
  backends : Std.ExtTreeMap BackendId (Backend Profile) compare

namespace BackendRegistry

variable {Profile : Type}

def new : BackendRegistry Profile :=
  ⟨∅⟩

/-- Under its own id. -/
def register (registry : BackendRegistry Profile) (backend : Backend Profile) :
    BackendRegistry Profile :=
  ⟨registry.backends.insert backend.id backend⟩

def backend (registry : BackendRegistry Profile) (id : BackendId) : Option (Backend Profile) :=
  registry.backends[id]?

end BackendRegistry

/-! ### The plan -/

def boundaryPlanSchemaVersion : Nat := 1

structure AdmittedRequirement where
  requirement : BoundaryRequirement
  enforcement : Enforcement
  mechanism : String
  deriving Repr, DecidableEq

structure BoundaryPlan where
  schemaVersion : Nat
  planId : Digest32
  backend : BackendId
  profile : BackendProfileSnapshot
  admitted : List AdmittedRequirement
  workload : Workload
  budgets : AdmittedBudgets
  evidence : EvidenceRequirements
  deriving DecidableEq

/-- The errors the planner returns. -/
inductive PlanError where
  | unsupported (requirement : BoundaryRequirement) (backend : BackendId)
  | profileInsufficient (backend : BackendId) (detail : String)
  | evidenceUnsatisfiable (backend : BackendId) (detail : String)
  | budgetRefused (backend : BackendId) (dimension : BudgetDimension) (failure : BudgetFailure)
  | unknownBackend (backend : BackendId)
  | invalidPolicy (detail : String)
  | shadowDivergence (detail : String)
  deriving Repr, DecidableEq

end Batpak.Bvisor
