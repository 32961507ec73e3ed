/-
Module: Batpak.Bvisor.Shadow
Purpose: The admission decision twice: the imperative reference over normalized inputs, and
  the compiled circuit evaluated on their encoding, with the comparison of both.
Trusted boundary: none
Main exports: AdmissionInputs, AdmissionOutcome
-/
import Batpak.Bvisor.ScheduleCircuit

namespace Batpak.Bvisor

/-! ### Inputs and outcomes -/

structure RequirementInputs where
  enforcement : BitVec 8
  evidenceRequired : BitVec 64
  evidenceAvailable : BitVec 64
  conflictPresent : BitVec 64
  conflictForbidden : BitVec 64
  deriving Repr, Inhabited, DecidableEq

structure BudgetInputs where
  limit : BitVec 64
  available : BitVec 64
  derivedMin : BitVec 64
  guaranteeRequired : BitVec 8
  guaranteeAvailable : BitVec 8
  evidenceRequired : BitVec 64
  evidenceAvailable : BitVec 64
  deriving Repr, Inhabited, DecidableEq

structure AdmissionInputs where
  plannedProfile : BitVec 64
  liveProfile : BitVec 64
  requirements : List RequirementInputs
  budget : List BudgetInputs
  schedule : ScheduleInputs
  deriving Repr, Inhabited, DecidableEq

inductive AdmissionOutcome where
  | admitted (trace : List Bool)
  | refused (membrane refusalCode : Nat) (trace : List Bool)
      (budgetDimension budgetReason scheduleReason : Nat)
  deriving Repr, Inhabited, DecidableEq

inductive AdmissionDivergence where
  | outcomeMismatch (reference circuit : AdmissionOutcome)
  | circuitError (reference : AdmissionOutcome) (reason : String)
  deriving Repr, Inhabited, DecidableEq

/-! ### The reference -/

def fieldBits : Nat := 8

def enforcementBits : Nat := 2

def budgetMembrane : Nat := 4

def scheduleMembraneIndex : Nat := 6

/-- The low bits of a word. -/
def mask (value : BitVec 64) (bits : Nat) : BitVec 64 :=
  if 64 ≤ bits then value else value &&& ((1#64 <<< bits) - 1)

def maskField (value : BitVec 64) : BitVec 64 :=
  mask value fieldBits

def maskCode (value : BitVec 8) : BitVec 64 :=
  mask (value.setWidth 64) enforcementBits

/-- The first failing reason of a budget dimension. -/
def budgetDimReason (d : BudgetInputs) : Nat :=
  if (maskField d.limit).toNat < (maskField d.derivedMin).toNat then 1
  else if (maskField d.available).toNat < (maskField d.limit).toNat then 2
  else if (maskCode d.guaranteeAvailable).toNat < (maskCode d.guaranteeRequired).toNat then 3
  else if maskField d.evidenceRequired &&& ~~~maskField d.evidenceAvailable ≠ 0 then 4
  else 0

def referenceScheduleDetail (inputs : AdmissionInputs) : Nat :=
  ((scheduleRefusal inputs.schedule).map ScheduleRefusal.code).getD 0

def referenceTrace (inputs : AdmissionInputs) : List Bool :=
  [decide (maskField inputs.plannedProfile = maskField inputs.liveProfile),
    inputs.requirements.all fun r => 1 ≤ (maskCode r.enforcement).toNat,
    inputs.requirements.all fun r =>
      maskField r.evidenceRequired &&& ~~~maskField r.evidenceAvailable = 0,
    inputs.budget.all fun d => budgetDimReason d = 0,
    inputs.requirements.all fun r =>
      maskField r.conflictPresent &&& maskField r.conflictForbidden = 0,
    decide (referenceScheduleDetail inputs = 0)]

/-- The packed first failing dimension and its reason, from dimension index `i` on. -/
def budgetDetailFrom : Nat → List BudgetInputs → Nat
  | _, [] => 0
  | i, d :: rest =>
      if budgetDimReason d ≠ 0 then ((i + 1) <<< 3) ||| budgetDimReason d
      else budgetDetailFrom (i + 1) rest

def referenceBudgetDetail (inputs : AdmissionInputs) : Nat :=
  budgetDetailFrom 0 inputs.budget

def budgetSelectors (membrane detail : Nat) : Nat × Nat :=
  if membrane = budgetMembrane then (detail >>> 3, detail &&& 7) else (0, 0)

def scheduleSelector (membrane detail : Nat) : Nat :=
  if membrane = scheduleMembraneIndex then detail else 0

structure MembraneDetails where
  budget : Nat
  schedule : Nat
  deriving Repr, Inhabited, DecidableEq

def outcomeFromTrace (trace : List Bool) (details : MembraneDetails) : AdmissionOutcome :=
  match trace.findIdx? fun pass => !pass with
  | none => .admitted trace
  | some i =>
      let index := i + 1
      let (budgetDimension, budgetReason) := budgetSelectors index details.budget
      .refused index index trace budgetDimension budgetReason
        (scheduleSelector index details.schedule)

def referenceAdmission (inputs : AdmissionInputs) : AdmissionOutcome :=
  outcomeFromTrace (referenceTrace inputs)
    ⟨referenceBudgetDetail inputs, referenceScheduleDetail inputs⟩

/-! ### The circuit -/

structure AdmissionShape where
  requirements : Nat
  budgetDims : Nat
  budgetWidth : Width
  evidenceWidth : Width
  conflictWidth : Width
  hashWidth : Width
  schedule : ScheduleShape

def admissionCircuit (shape : AdmissionShape) : Build Outputs := do
  let planned ← input shape.hashWidth
  let live ← input shape.hashWidth
  let drift ← profileDriftCheck planned live
  let enforcements ← inputs shape.requirements enforcementWidth
  let support ← supportCheck enforcements enforcementWidth
  let required ← inputs shape.requirements shape.evidenceWidth
  let available ← inputs shape.requirements shape.evidenceWidth
  let evidence ← evidenceCheck required available
  let lanes ← budgetInputs shape.budgetDims shape.budgetWidth shape.evidenceWidth
  let budget ← budgetCheck lanes
  let present ← inputs shape.requirements shape.conflictWidth
  let forbidden ← inputs shape.requirements shape.conflictWidth
  let conflict ← conflictCheck present forbidden shape.conflictWidth
  let schedule ← scheduleMembraneBit shape.schedule
  let membranes := [drift, support, evidence, budget, conflict, schedule]
  let (admitBit, refusalCode) ← composeMembranes membranes
  return ⟨admitBit, refusalCode, membranes⟩

def compileAdmission (shape : AdmissionShape) : Except ProgramError AdmissionProgram :=
  compile (admissionCircuit shape)

/-- The shadow's field lanes are eight bits wide. -/
def fieldWidth : Width := refusalWidth

def admissionShapeOf (inputs : AdmissionInputs) : AdmissionShape where
  requirements := inputs.requirements.length
  budgetDims := inputs.budget.length
  budgetWidth := fieldWidth
  evidenceWidth := fieldWidth
  conflictWidth := fieldWidth
  hashWidth := fieldWidth
  schedule := shapeOf inputs.schedule

def encodeLane (value : BitVec 64) (width : Width) : Lane :=
  Lane.fromLeBytes (toLeBytes value) width

def encodeField (value : BitVec 64) : Lane :=
  encodeLane value fieldWidth

def encodeCode (value : BitVec 8) : Lane :=
  encodeLane (value.setWidth 64) enforcementWidth

def encodeBudget (budget : List BudgetInputs) : List Lane :=
  budget.map (fun d => encodeField d.limit) ++
  budget.map (fun d => encodeField d.available) ++
  budget.map (fun d => encodeField d.derivedMin) ++
  budget.map (fun d => encodeCode d.guaranteeRequired) ++
  budget.map (fun d => encodeCode d.guaranteeAvailable) ++
  budget.map (fun d => encodeField d.evidenceRequired) ++
  budget.map (fun d => encodeField d.evidenceAvailable)

def encodeAdmission (inputs : AdmissionInputs) : List Lane :=
  [encodeField inputs.plannedProfile, encodeField inputs.liveProfile] ++
  inputs.requirements.map (fun r => encodeCode r.enforcement) ++
  inputs.requirements.map (fun r => encodeField r.evidenceRequired) ++
  inputs.requirements.map (fun r => encodeField r.evidenceAvailable) ++
  encodeBudget inputs.budget ++
  inputs.requirements.map (fun r => encodeField r.conflictPresent) ++
  inputs.requirements.map (fun r => encodeField r.conflictForbidden) ++
  encodeSchedule inputs.schedule (shapeOf inputs.schedule)

/-- Compile, evaluate, and name the stage that failed. -/
def runCircuit (stage : String) (program : Except ProgramError AdmissionProgram)
    (lanes : List Lane) : Except String Decision :=
  match program with
  | .error _ => .error (stage ++ " compilation failed")
  | .ok program =>
      match evaluate program lanes with
      | .error _ => .error (stage ++ " evaluation failed")
      | .ok decision => .ok decision

def circuitBudgetDetail (inputs : AdmissionInputs) : Except String Nat := do
  let decision ← runCircuit "budget detail"
    (compileBudgetDetail inputs.budget.length fieldWidth fieldWidth) (encodeBudget inputs.budget)
  return decision.refusalCode

def circuitScheduleDetail (inputs : AdmissionInputs) : Except String Nat := do
  let shape := shapeOf inputs.schedule
  let decision ← runCircuit "schedule detail" (compileScheduleMembrane shape)
    (encodeSchedule inputs.schedule shape)
  return decision.refusalCode

def circuitAdmission (inputs : AdmissionInputs) : Except String AdmissionOutcome := do
  let decision ← runCircuit "circuit" (compileAdmission (admissionShapeOf inputs))
    (encodeAdmission inputs)
  if decision.admitted then return .admitted decision.membranes
  else
    let budgetDetail ← circuitBudgetDetail inputs
    let (budgetDimension, budgetReason) := budgetSelectors decision.refusalCode budgetDetail
    let scheduleDetail ← circuitScheduleDetail inputs
    return .refused decision.refusalCode decision.refusalCode decision.membranes budgetDimension
      budgetReason (scheduleSelector decision.refusalCode scheduleDetail)

def decideShadow (reference : AdmissionOutcome) (circuit : Except String AdmissionOutcome) :
    Except AdmissionDivergence AdmissionOutcome :=
  match circuit with
  | .ok circuit =>
      if circuit = reference then .ok reference else .error (.outcomeMismatch reference circuit)
  | .error reason => .error (.circuitError reference reason)

def shadowCheck (inputs : AdmissionInputs) : Except AdmissionDivergence AdmissionOutcome :=
  decideShadow (referenceAdmission inputs) (circuitAdmission inputs)

end Batpak.Bvisor
