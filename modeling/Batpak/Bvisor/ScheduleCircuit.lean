/-
Module: Batpak.Bvisor.ScheduleCircuit
Purpose: The schedule membrane as a circuit: the lane widths, the encoding of the inputs, and the
  nine checks.
Trusted boundary: none
Main exports: ScheduleShape, shapeOf
-/
import Batpak.Bvisor.Compile
import Batpak.Bvisor.Schedule

namespace Batpak.Bvisor

/-! ### Shape and encoding -/

structure ScheduleShape where
  declarations : Nat
  slots : Nat
  indexWidth : Width
  phaseWidth : Width
  digestWidth : Width
  universeWidth : Width
  coversWidth : Width
  deriving Repr, DecidableEq

namespace ScheduleShape

def universeSize (shape : ScheduleShape) : Nat :=
  shape.universeWidth.bits

def coversSize (shape : ScheduleShape) : Nat :=
  shape.coversWidth.bits

end ScheduleShape

/-- A width clamped into the admitted range. -/
def clampWidth (bits : Nat) : Width :=
  ⟨min (max bits 1) maxWidth⟩

/-- `64 - leading_zeros`: one past the highest set bit. -/
def bitLength (value : BitVec 64) : Nat :=
  Nat.size value.toNat

def bitsFor (value : BitVec 64) : Width :=
  clampWidth (bitLength value)

def bitsetSpan (bits : BitVec 64) : Nat :=
  if bits = 0 then 0 else bitLength bits

/-- The bytes of a word, lowest first. -/
def toLeBytes (value : BitVec 64) : List (BitVec 8) :=
  (List.range 8).map fun k => (value >>> (8 * k)).setWidth 8

def leBytes (value : BitVec 64) (width : Width) : List (BitVec 8) :=
  (toLeBytes value).take ((width.bits + 7) / 8)

def lane (value : BitVec 64) (width : Width) : Lane :=
  Lane.fromLeBytes (leBytes value width) width

def maxWord (a b : BitVec 64) : BitVec 64 :=
  if a.toNat ≤ b.toNat then b else a

/-- A length or an index as a word. -/
def word (n : Nat) : BitVec 64 :=
  BitVec.ofNat 64 n

def shapeOf (inputs : ScheduleInputs) : ScheduleShape :=
  let n := inputs.declarations.length
  let prereqConflict := inputs.declarations.foldl
    (fun acc d => acc ||| (d.prerequisites ||| d.conflicts)) 0
  let coversRequired := inputs.declarations.foldl (fun acc d => acc ||| d.covers) inputs.required
  let maxPhase := inputs.declarations.foldl (fun acc d => maxWord acc (d.phase.setWidth 64)) 0
  let maxDigest := inputs.schedule.foldl
    (fun acc s => maxWord (maxWord acc s.claimedDeclDigest) s.claimedParamDigest)
    (inputs.declarations.foldl (fun acc d => maxWord (maxWord acc d.declDigest) d.paramDigest) 0)
  let maxIndex := inputs.schedule.foldl (fun acc s => maxWord acc s.primitive) (word n)
  let universe' := min (max (max n (bitsetSpan prereqConflict)) 1) maxWidth
  let maxIndex := maxWord maxIndex (word (universe' - 1))
  { declarations := n
    slots := inputs.schedule.length
    indexWidth := bitsFor maxIndex
    phaseWidth := bitsFor maxPhase
    digestWidth := bitsFor maxDigest
    universeWidth := clampWidth universe'
    coversWidth := clampWidth (bitsetSpan coversRequired) }

/-- The encoded lanes in the order in which `declareInputs` reads them. -/
def encodeSchedule (inputs : ScheduleInputs) (shape : ScheduleShape) : List Lane :=
  inputs.declarations.map (fun d => lane (d.phase.setWidth 64) shape.phaseWidth) ++
  inputs.declarations.map (fun d => lane d.covers shape.coversWidth) ++
  inputs.declarations.map (fun d => lane d.prerequisites shape.universeWidth) ++
  inputs.declarations.map (fun d => lane d.conflicts shape.universeWidth) ++
  inputs.declarations.map (fun d => lane d.declDigest shape.digestWidth) ++
  inputs.declarations.map (fun d => lane d.paramDigest shape.digestWidth) ++
  inputs.schedule.map (fun s => lane s.primitive shape.indexWidth) ++
  inputs.schedule.map (fun s => lane s.claimedDeclDigest shape.digestWidth) ++
  inputs.schedule.map (fun s => lane s.claimedParamDigest shape.digestWidth) ++
  [lane inputs.required shape.coversWidth]

/-! ### Input lanes and derived nodes -/

structure ScheduleLanes where
  phase : List NodeId
  covers : List NodeId
  prereq : List NodeId
  conflict : List NodeId
  declDigest : List NodeId
  paramDigest : List NodeId
  slotIndex : List NodeId
  slotDecl : List NodeId
  slotParam : List NodeId
  required : NodeId

def declareInputs (shape : ScheduleShape) : Build ScheduleLanes := do
  let phase ← inputs shape.declarations shape.phaseWidth
  let covers ← inputs shape.declarations shape.coversWidth
  let prereq ← inputs shape.declarations shape.universeWidth
  let conflict ← inputs shape.declarations shape.universeWidth
  let declDigest ← inputs shape.declarations shape.digestWidth
  let paramDigest ← inputs shape.declarations shape.digestWidth
  let slotIndex ← inputs shape.slots shape.indexWidth
  let slotDecl ← inputs shape.slots shape.digestWidth
  let slotParam ← inputs shape.slots shape.digestWidth
  let required ← input shape.coversWidth
  return ⟨phase, covers, prereq, conflict, declDigest, paramDigest, slotIndex, slotDecl, slotParam,
    required⟩

def konst (value : BitVec 64) (width : Width) : Build NodeId :=
  constant (leBytes value width) width

/-- Whether bit `index` of a lane is set. -/
def bitSet (index : Nat) (target : NodeId) (width : Width) : Build NodeId := do
  let mask ← konst (bit index) width
  bitsetSubset mask target

/-- The select chain over the declared fields, from field `q` on. -/
def gatherFrom (slotIndex : NodeId) (indexWidth fieldWidth : Width) (acc : NodeId) :
    Nat → List NodeId → Build NodeId
  | _, [] => return acc
  | q, field :: rest => do
      let qConst ← konst (word q) indexWidth
      let isQ ← equal slotIndex qConst
      let acc ← select isQ field acc fieldWidth
      gatherFrom slotIndex indexWidth fieldWidth acc (q + 1) rest

def gather (slotIndex : NodeId) (fields : List NodeId) (indexWidth fieldWidth : Width) :
    Build NodeId := do
  let acc ← konst 0 fieldWidth
  gatherFrom slotIndex indexWidth fieldWidth acc 0 fields

/-- Placed strictly before each slot, and at or before it, for one primitive; the running
disjunction over the slots from the given value on. -/
def placements (qConst running : NodeId) : List NodeId → Build (List (NodeId × NodeId) × NodeId)
  | [] => return ([], running)
  | slot :: rest => do
      let eq ← equal slot qConst
      let up ← or running eq
      let (later, present) ← placements qConst up rest
      return ((running, up) :: later, present)

def primitivePlacements (lanes : ScheduleLanes) (shape : ScheduleShape) (q : Nat) :
    Build (List (NodeId × NodeId) × NodeId) := do
  let qConst ← konst (word q) shape.indexWidth
  let running ← konst 0 .one
  placements qConst running lanes.slotIndex

/-- `before`, `upto` and `present` are kept per primitive: `placed[q][i]` is the pair
`(before[i][q], upto[i][q])`. -/
structure Derived where
  placed : List (List (NodeId × NodeId) × NodeId)
  gphase : List NodeId
  gprereq : List NodeId
  gdecl : List NodeId
  gparam : List NodeId

namespace Derived

def present (d : Derived) (q : Nat) : NodeId :=
  (d.placed.getD q ([], 0)).2

def before (d : Derived) (i q : Nat) : NodeId :=
  ((d.placed.getD q ([], 0)).1.getD i (0, 0)).1

def upto (d : Derived) (i q : Nat) : NodeId :=
  ((d.placed.getD q ([], 0)).1.getD i (0, 0)).2

end Derived

def buildGathers (lanes : ScheduleLanes) (shape : ScheduleShape) (fields : List NodeId)
    (fieldWidth : Width) : Build (List NodeId) :=
  collect (fun slot => gather slot fields shape.indexWidth fieldWidth) lanes.slotIndex

def buildDerived (lanes : ScheduleLanes) (shape : ScheduleShape) : Build Derived := do
  let placed ← collect (primitivePlacements lanes shape) (List.range shape.universeSize)
  let gphase ← buildGathers lanes shape lanes.phase shape.phaseWidth
  let gprereq ← buildGathers lanes shape lanes.prereq shape.universeWidth
  let gdecl ← buildGathers lanes shape lanes.declDigest shape.digestWidth
  let gparam ← buildGathers lanes shape lanes.paramDigest shape.digestWidth
  return ⟨placed, gphase, gprereq, gdecl, gparam⟩

/-! ### The nine checks -/

def checkInRange (lanes : ScheduleLanes) (shape : ScheduleShape) : Build NodeId := do
  let nConst ← konst (word shape.declarations) shape.indexWidth
  let bits ← collect (fun idx => compareUlt idx nConst) lanes.slotIndex
  andReduce bits

/-- The pairs of a slot with every later one. -/
def laterPairs {α : Type} : List α → List (α × α)
  | [] => []
  | a :: rest => rest.map (a, ·) ++ laterPairs rest

def checkDistinct (lanes : ScheduleLanes) : Build NodeId := do
  let bits ← collect (fun (a, b) => do
    let eq ← equal a b
    not eq) (laterPairs lanes.slotIndex)
  andReduce bits

def checkDeclIntegrity (lanes : ScheduleLanes) (d : Derived) : Build NodeId := do
  let bits ← collect (fun i => do
    let declOk ← equal (d.gdecl.getD i 0) (lanes.slotDecl.getD i 0)
    let paramOk ← equal (d.gparam.getD i 0) (lanes.slotParam.getD i 0)
    and declOk paramOk) (List.range lanes.slotIndex.length)
  andReduce bits

/-- Every set bit of a lane implies its guard. -/
def impliesAllBits (bitset : NodeId) (shape : ScheduleShape) (guard : Nat → NodeId) :
    Build NodeId := do
  let bits ← collect (fun r => do
    let has ← bitSet r bitset shape.universeWidth
    let notHas ← not has
    or notHas (guard r)) (List.range shape.universeSize)
  andReduce bits

def checkPrereqClosure (lanes : ScheduleLanes) (d : Derived) (shape : ScheduleShape) :
    Build NodeId := do
  let bits ← collect (fun q => do
    let satisfied ← impliesAllBits (lanes.prereq.getD q 0) shape d.present
    let absent ← not (d.present q)
    or absent satisfied) (List.range shape.declarations)
  andReduce bits

def checkConflictFree (lanes : ScheduleLanes) (d : Derived) (shape : ScheduleShape) :
    Build NodeId := do
  let bits ← collect (fun q => do
    let noClash ← collect (fun other => do
      let has ← bitSet other (lanes.conflict.getD q 0) shape.universeWidth
      let notHas ← not has
      let notPresent ← not (d.present other)
      or notHas notPresent) ((List.range shape.declarations).filter (· ≠ q))
    let clean ← andReduce noClash
    let absent ← not (d.present q)
    or absent clean) (List.range shape.declarations)
  andReduce bits

def checkPrereqOrder (d : Derived) (shape : ScheduleShape) : Build NodeId := do
  let bits ← collect (fun i => impliesAllBits (d.gprereq.getD i 0) shape (d.before i))
    (List.range shape.slots)
  andReduce bits

def checkPhaseOrder (d : Derived) : Build NodeId := do
  let bits ← collect (fun (a, b) => compareUle a b) (d.gphase.zip d.gphase.tail)
  andReduce bits

def checkCoverage (lanes : ScheduleLanes) (d : Derived) (shape : ScheduleShape) :
    Build NodeId := do
  let bits ← collect (fun c => do
    let requiredC ← bitSet c lanes.required shape.coversWidth
    let coveredBy ← collect (fun q => do
      let coversC ← bitSet c (lanes.covers.getD q 0) shape.coversWidth
      and (d.present q) coversC) (List.range shape.declarations)
    let covered ← orReduce coveredBy
    let notRequired ← not requiredC
    or notRequired covered) (List.range shape.coversSize)
  andReduce bits

/-- `key(q) < key(L[i])`. -/
def keyLess (lanes : ScheduleLanes) (d : Derived) (shape : ScheduleShape) (q i : Nat) :
    Build NodeId := do
  let phaseLt ← compareUlt (lanes.phase.getD q 0) (d.gphase.getD i 0)
  let phaseEq ← equal (lanes.phase.getD q 0) (d.gphase.getD i 0)
  let qConst ← konst (word q) shape.indexWidth
  let indexLt ← compareUlt qConst (lanes.slotIndex.getD i 0)
  let tie ← and phaseEq indexLt
  or phaseLt tie

def checkCanonical (lanes : ScheduleLanes) (d : Derived) (shape : ScheduleShape) :
    Build NodeId := do
  let violations ← collect (fun (i, q) => do
    let unselected ← not (d.upto i q)
    let ready ← impliesAllBits (lanes.prereq.getD q 0) shape (d.before i)
    let keyLt ← keyLess lanes d shape q i
    let pu ← and (d.present q) unselected
    let rk ← and ready keyLt
    and pu rk) ((List.range shape.slots).flatMap fun i =>
      (List.range shape.declarations).map fun q => (i, q))
  let any ← orReduce violations
  not any

def buildChecks (shape : ScheduleShape) : Build (List NodeId) := do
  let lanes ← declareInputs shape
  let derived ← buildDerived lanes shape
  let inRange ← checkInRange lanes shape
  let distinct ← checkDistinct lanes
  let integrity ← checkDeclIntegrity lanes derived
  let closure ← checkPrereqClosure lanes derived shape
  let conflictFree ← checkConflictFree lanes derived shape
  let prereqOrder ← checkPrereqOrder derived shape
  let phaseOrder ← checkPhaseOrder derived
  let coverage ← checkCoverage lanes derived shape
  let canonical ← checkCanonical lanes derived shape
  return [inRange, distinct, integrity, closure, conflictFree, prereqOrder, phaseOrder, coverage,
    canonical]

def scheduleMembrane (shape : ScheduleShape) : Build Outputs := do
  let checks ← buildChecks shape
  let (admitBit, refusalCode) ← composeMembranes checks
  return ⟨admitBit, refusalCode, checks⟩

def compileScheduleMembrane (shape : ScheduleShape) : Except ProgramError AdmissionProgram :=
  compile (scheduleMembrane shape)

def scheduleMembraneBit (shape : ScheduleShape) : Build NodeId := do
  let checks ← buildChecks shape
  andReduce checks

end Batpak.Bvisor
