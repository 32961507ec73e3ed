/-
Module: Batpak.Bvisor.Lowering
Purpose: The compiler from selected primitive declarations to the lowering schedule: checks,
  topological sort, and the entries with their digests.
Trusted boundary: the canonical encoding and its hash are parameters
Main exports: LoweringPhase, PrimitiveDecl
-/
import Batpak.Util.Kahn

namespace Batpak.Bvisor

open Batpak.Util

/-! ### Declarations -/

/-- The order of the constructors is the setup order. -/
inductive LoweringPhase where
  | namespaceCreate
  | fsSetup
  | privilegeDrop
  | fdHygiene
  | policyInstall
  | launch
  | observe
  | teardown
  deriving Repr, Inhabited, DecidableEq

namespace LoweringPhase

/-- The frozen wire code. -/
def code : LoweringPhase → Nat
  | namespaceCreate => 0
  | fsSetup => 1
  | privilegeDrop => 2
  | fdHygiene => 3
  | policyInstall => 4
  | launch => 5
  | observe => 6
  | teardown => 7

/-- The place in the declaration, by which the derived order compares. -/
def rank (phase : LoweringPhase) : Nat :=
  phase.ctorIdx

theorem rank_eq_code (phase : LoweringPhase) : phase.rank = phase.code := by
  cases phase <;> rfl

theorem rank_injective : Function.Injective rank := by
  intro a b h
  cases a <;> cases b <;> first | rfl | exact absurd h (by decide)

instance : LinearOrder LoweringPhase :=
  LinearOrder.lift' rank rank_injective

end LoweringPhase

inductive RequirementKind where
  | filesystem
  | networkDenyAll
  | networkAllowList
  | childSpawnDenyNewTasks
  | childSpawnAllowThreads
  | childSpawnAllowDescendants
  | environment
  | inheritedFdsNone
  | inheritedFdsOnly
  | launchWorkload
  | captureStreams
  | tempRoot
  | exposePath
  | commitArtifact
  | discardArtifact
  | kill
  | listOutputs
  deriving Repr, Inhabited, DecidableEq

abbrev PrimitiveId := String

abbrev PrimitiveVersion := Nat

abbrev Digest32 := BitVec 256

/-- The pure declaration of a primitive, as far as the compiler reads it. -/
structure PrimitiveDecl where
  id : PrimitiveId
  version : PrimitiveVersion
  covers : List RequirementKind
  phase : LoweringPhase
  prerequisites : List PrimitiveId
  conflicts : List PrimitiveId
  deriving Repr, Inhabited, DecidableEq

/-! ### Digests -/

/-- What the declaration digest is taken over: every set sorted and without repetition. -/
structure DeclDigestInput where
  domain : String
  id : String
  version : Nat
  phase : Nat
  covers : List RequirementKind
  prerequisites : List String
  conflicts : List String
  deriving Repr, Inhabited, DecidableEq

/-- `sort_unstable` and `dedup`. -/
def sortDedup {α : Type} [DecidableEq α] (le : α → α → Prop) [DecidableRel le] (xs : List α) :
    List α :=
  (xs.insertionSort le).destutter (· ≠ ·)

def declDigestInput (decl : PrimitiveDecl) : DeclDigestInput where
  domain := "bvisor.primitive-decl.v1"
  id := decl.id
  version := decl.version
  phase := decl.phase.code
  covers := sortDedup (fun a b => a.ctorIdx ≤ b.ctorIdx) decl.covers
  prerequisites := sortDedup (· ≤ ·) decl.prerequisites
  conflicts := sortDedup (· ≤ ·) decl.conflicts

/-- The canonical encoding followed by the hash, which can fail only in the encoder, and the
digest of the empty parameters. -/
structure Digests where
  hash : DeclDigestInput → Except String Digest32
  emptyParamDigest : Digest32

/-! ### The schedule -/

structure ScheduleEntry where
  id : PrimitiveId
  version : PrimitiveVersion
  phase : LoweringPhase
  paramDigest : Digest32
  declDigest : Digest32
  deriving Repr, Inhabited, DecidableEq

inductive LoweringError where
  | duplicatePrimitive (id : PrimitiveId)
  | missingPrerequisite (primitive missing : PrimitiveId)
  | conflictingPrimitives (a b : PrimitiveId)
  | phaseOrderViolation (prerequisite : PrimitiveId) (prerequisitePhase : LoweringPhase)
      (dependent : PrimitiveId) (dependentPhase : LoweringPhase)
  | cyclicDependency (involved : List PrimitiveId)
  | canonicalEncoding (message : String)
  deriving Repr, Inhabited, DecidableEq

def declDigest (digests : Digests) (decl : PrimitiveDecl) : Except LoweringError Digest32 :=
  match digests.hash (declDigestInput decl) with
  | .ok digest => .ok digest
  | .error message => .error (.canonicalEncoding message)

/-! ### The compiler -/

/-- Insert into the map from ids, which is kept in id order; nothing when the id is there. -/
def insertDecl (decl : PrimitiveDecl) : List PrimitiveDecl → Option (List PrimitiveDecl)
  | [] => some [decl]
  | other :: rest =>
      if decl.id < other.id then some (decl :: other :: rest)
      else if decl.id = other.id then none
      else (insertDecl decl rest).map (other :: ·)

def indexById : List PrimitiveDecl → List PrimitiveDecl →
    Except LoweringError (List PrimitiveDecl)
  | byId, [] => .ok byId
  | byId, decl :: rest =>
      match insertDecl decl byId with
      | some byId => indexById byId rest
      | none => .error (.duplicatePrimitive decl.id)

def lookupId (byId : List PrimitiveDecl) (id : PrimitiveId) : Option PrimitiveDecl :=
  byId.find? fun decl => decl.id = id

/-- The first declared conflict of two selected primitives, in id order. -/
def firstConflict (byId : List PrimitiveDecl) : Option LoweringError :=
  byId.findSome? fun decl =>
    decl.conflicts.findSome? fun other =>
      if (lookupId byId other).isSome then
        some (if decl.id ≤ other then .conflictingPrimitives decl.id other
          else .conflictingPrimitives other decl.id)
      else none

/-- The prerequisites of one primitive as a set in id order: each must be selected and must
not lower in a later phase. -/
def prereqSet (byId : List PrimitiveDecl) (decl : PrimitiveDecl) :
    List PrimitiveId → List PrimitiveId → Except LoweringError (List PrimitiveId)
  | set, [] => .ok set
  | set, pre :: rest =>
      match lookupId byId pre with
      | none => .error (.missingPrerequisite decl.id pre)
      | some preDecl =>
          if decl.phase < preDecl.phase then
            .error (.phaseOrderViolation pre preDecl.phase decl.id decl.phase)
          else prereqSet byId decl (insertByKey id pre set) rest

/-- The prerequisite sets of all primitives, in id order. -/
def prereqSets (byId : List PrimitiveDecl) :
    Except LoweringError (List (PrimitiveId × List PrimitiveId)) :=
  byId.mapM fun decl => (prereqSet byId decl [] decl.prerequisites).map fun set => (decl.id, set)

def prereqsOf (sets : List (PrimitiveId × List PrimitiveId)) (id : PrimitiveId) :
    List PrimitiveId :=
  ((sets.find? fun e => e.1 = id).map Prod.snd).getD []

abbrev LoweringKey := LoweringPhase ×ₗ PrimitiveId ×ₗ PrimitiveVersion

/-- The canonical ready key of an id. -/
def loweringKey (byId : List PrimitiveDecl) (id : PrimitiveId) : LoweringKey :=
  let decl := (lookupId byId id).getD default
  toLex (decl.phase, toLex (id, decl.version))

def emitEntry (digests : Digests) (byId : List PrimitiveDecl) (id : PrimitiveId) :
    Except LoweringError ScheduleEntry := do
  let decl := (lookupId byId id).getD default
  let digest ← declDigest digests decl
  return ⟨decl.id, decl.version, decl.phase, digests.emptyParamDigest, digest⟩

/-- Sort the selected primitives and emit their entries. -/
def orderAndEmit (digests : Digests) (byId : List PrimitiveDecl)
    (sets : List (PrimitiveId × List PrimitiveId)) : Except LoweringError (List ScheduleEntry) :=
  let ids := byId.map (·.id)
  let final := kahnRun (loweringKey byId) (prereqsOf sets) ids
  if final.ordered.length ≠ ids.length then
    .error (.cyclicDependency (ids.filter fun id => 0 < final.indegree id))
  else final.ordered.mapM (emitEntry digests byId)

def compileSchedule (digests : Digests) (primitives : List PrimitiveDecl) :
    Except LoweringError (List ScheduleEntry) := do
  let byId ← indexById [] primitives
  match firstConflict byId with
  | some conflict => .error conflict
  | none =>
      let sets ← prereqSets byId
      orderAndEmit digests byId sets

end Batpak.Bvisor
