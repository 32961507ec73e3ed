/-
Module: Batpak.Bvisor.Compile
Purpose: The circuit builder and the membranes it lowers: profile, support, evidence, budget and
  conflict checks.
Trusted boundary: none
Main exports: CircuitBuilder, Build
-/
import Batpak.Bvisor.Program

namespace Batpak.Bvisor

/-! ### The builder -/

structure CircuitBuilder where
  inputs : List Width
  nodes : List Node
  deriving Repr, Inhabited, DecidableEq

def CircuitBuilder.new : CircuitBuilder :=
  ⟨[], []⟩

/-- An action on the builder. -/
abbrev Build := StateM CircuitBuilder

/-- The id saturates where the node count no longer fits. -/
def push (op : NodeOp) (operands : List NodeId) (width : Width) : Build NodeId := fun b =>
  (min b.nodes.length u32Max, { b with nodes := b.nodes ++ [⟨op, operands, width⟩] })

/-- Declare the next input lane and read it. -/
def input (width : Width) : Build NodeId := fun b =>
  push (.input (min b.inputs.length u16Max)) [] width { b with inputs := b.inputs ++ [width] }

def constant (bytes : List (BitVec 8)) (width : Width) : Build NodeId :=
  push (.constant bytes) [] width

def compareUle (a b : NodeId) : Build NodeId :=
  push (.compare .ule) [a, b] .one

def compareUlt (a b : NodeId) : Build NodeId :=
  push (.compare .ult) [a, b] .one

def and (a b : NodeId) : Build NodeId :=
  push .and [a, b] .one

def or (a b : NodeId) : Build NodeId :=
  push .or [a, b] .one

def not (a : NodeId) : Build NodeId :=
  push .not [a] .one

def select (cond a b : NodeId) (width : Width) : Build NodeId :=
  push .select [cond, a, b] width

def bitsetSubset (a b : NodeId) : Build NodeId :=
  push .bitsetSubset [a, b] .one

def bitsetIntersection (a b : NodeId) (width : Width) : Build NodeId :=
  push .bitsetIntersection [a, b] width

def equal (a b : NodeId) : Build NodeId :=
  push .eq [a, b] .one

/-- Run an action for each element and collect what it returns. -/
def collect {α β : Type} (f : α → Build β) : List α → Build (List β)
  | [] => return []
  | x :: xs => do
      let y ← f x
      let ys ← collect f xs
      return y :: ys

/-- `(0..n).map(|_| builder.input(width))`. -/
def inputs (n : Nat) (width : Width) : Build (List NodeId) :=
  collect (fun _ => input width) (List.range n)

/-- Reduce by halves. An empty list is the given constant bit. The depth of the halving is
bounded by the length. -/
def reduceFuel (unit : BitVec 8) (combine : NodeId → NodeId → Build NodeId) :
    Nat → List NodeId → Build NodeId
  | _, [] => constant [unit] .one
  | _, [only] => return only
  | 0, _ => constant [unit] .one
  | fuel + 1, items => do
      let l ← reduceFuel unit combine fuel (items.take (items.length / 2))
      let r ← reduceFuel unit combine fuel (items.drop (items.length / 2))
      combine l r

def andReduce (items : List NodeId) : Build NodeId :=
  reduceFuel 1 and items.length items

def orReduce (items : List NodeId) : Build NodeId :=
  reduceFuel 0 or items.length items

def finish (builder : CircuitBuilder) (outputs : Outputs) :
    Except ProgramError AdmissionProgram :=
  AdmissionProgram.new builder.inputs builder.nodes outputs

/-! ### Ordered refusal -/

/-- Width of the refusal lane, and of every field lane of the shadow encoding. -/
def refusalWidth : Width :=
  ⟨8⟩

def enforcementWidth : Width :=
  ⟨2⟩

/-- The selects from the last membrane to the first; `i` is the index of the first one. -/
def priorityFrom (code : NodeId) : Nat → List NodeId → Build NodeId
  | _, [] => return code
  | i, membrane :: rest => do
      let code ← priorityFrom code (i + 1) rest
      let failCode ← constant [BitVec.ofNat 8 (min (i + 1) 255)] refusalWidth
      select membrane code failCode refusalWidth

def priorityEncode (membranes : List NodeId) : Build NodeId := do
  let code ← constant [0] refusalWidth
  priorityFrom code 0 membranes

def composeMembranes (membranes : List NodeId) : Build (NodeId × NodeId) := do
  let admitBit ← andReduce membranes
  let refusal ← priorityEncode membranes
  return (admitBit, refusal)

/-! ### Membrane checks -/

/-- The lanes of one budget dimension. -/
structure BudgetLanes where
  limit : List NodeId
  available : List NodeId
  derivedMin : List NodeId
  guaranteeReq : List NodeId
  guaranteeAvail : List NodeId
  evidenceReq : List NodeId
  evidenceAvail : List NodeId

/-- Declare the budget lanes in canonical order. -/
def budgetInputs (dims : Nat) (budgetWidth evidenceWidth : Width) : Build BudgetLanes := do
  let limit ← inputs dims budgetWidth
  let available ← inputs dims budgetWidth
  let derivedMin ← inputs dims budgetWidth
  let guaranteeReq ← inputs dims enforcementWidth
  let guaranteeAvail ← inputs dims enforcementWidth
  let evidenceReq ← inputs dims evidenceWidth
  let evidenceAvail ← inputs dims evidenceWidth
  return ⟨limit, available, derivedMin, guaranteeReq, guaranteeAvail, evidenceReq, evidenceAvail⟩

/-- The four checks of one dimension in reason order. -/
def dimChecks (lanes : BudgetLanes) (d : Nat) : Build (List NodeId) := do
  let intrinsic ← compareUle (lanes.derivedMin.getD d 0) (lanes.limit.getD d 0)
  let capacity ← compareUle (lanes.limit.getD d 0) (lanes.available.getD d 0)
  let guarantee ← compareUle (lanes.guaranteeReq.getD d 0) (lanes.guaranteeAvail.getD d 0)
  let evidence ← bitsetSubset (lanes.evidenceReq.getD d 0) (lanes.evidenceAvail.getD d 0)
  return [intrinsic, capacity, guarantee, evidence]

def budgetCheck (lanes : BudgetLanes) : Build NodeId := do
  let perDim ← collect (fun d => do
    let checks ← dimChecks lanes d
    andReduce checks) (List.range lanes.limit.length)
  andReduce perDim

def evidenceCheck (required available : List NodeId) : Build NodeId := do
  let checks ← collect (fun (req, avail) => bitsetSubset req avail) (required.zip available)
  andReduce checks

/-- The code of `Mediated`. -/
def mediatedCode : BitVec 8 := 1

def supportCheck (enforcements : List NodeId) (enfWidth : Width) : Build NodeId := do
  let checks ← collect (fun enf => do
    let threshold ← constant [mediatedCode] enfWidth
    compareUle threshold enf) enforcements
  andReduce checks

def conflictCheck (present forbidden : List NodeId) (width : Width) : Build NodeId := do
  let zero ← constant (List.replicate ((width.bits + 7) / 8) 0) width
  let checks ← collect (fun (p, f) => do
    let intersection ← bitsetIntersection p f width
    equal intersection zero) (present.zip forbidden)
  andReduce checks

def profileDriftCheck (planned live : NodeId) : Build NodeId :=
  equal planned live

/-! ### The budget selector -/

/-- `(dim << 3) | reason` in eight bits. -/
def packDetail (dim reason : Nat) : BitVec 8 :=
  (BitVec.ofNat 8 (if dim ≤ 255 then dim else 0) <<< 3) ||| BitVec.ofNat 8 reason

/-- The selects over the checks of a dimension, last reason first. -/
def reasonFrom (dim : Nat) (zero : NodeId) : Nat → List NodeId → Build NodeId
  | _, [] => return zero
  | offset, pass :: rest => do
      let code ← reasonFrom dim zero (offset + 1) rest
      let packed ← constant [packDetail dim (offset + 1)] refusalWidth
      select pass code packed refusalWidth

/-- Pass bit and packed reason of one dimension. -/
def dimEntry (lanes : BudgetLanes) (zero : NodeId) (d : Nat) : Build (NodeId × NodeId) := do
  let checks ← dimChecks lanes d
  let code ← reasonFrom (d + 1) zero 0 checks
  let dimPass ← andReduce checks
  return (dimPass, code)

/-- The selects over the dimensions, last dimension first. -/
def detailFrom (zero : NodeId) : List (NodeId × NodeId) → Build NodeId
  | [] => return zero
  | (dimPass, code) :: rest => do
      let detail ← detailFrom zero rest
      select dimPass detail code refusalWidth

def budgetDetail (dims : Nat) (budgetWidth evidenceWidth : Width) : Build Outputs := do
  let lanes ← budgetInputs dims budgetWidth evidenceWidth
  let zero ← constant [0] refusalWidth
  let entries ← collect (dimEntry lanes zero) (List.range dims)
  let detail ← detailFrom zero entries
  let admitBit ← equal detail zero
  return ⟨admitBit, detail, [admitBit]⟩

/-- Run a builder from scratch and close the circuit. -/
def compile (build : Build Outputs) : Except ProgramError AdmissionProgram :=
  let (outputs, builder) := build .new
  finish builder outputs

def compileBudgetDetail (dims : Nat) (budgetWidth evidenceWidth : Width) :
    Except ProgramError AdmissionProgram :=
  compile (budgetDetail dims budgetWidth evidenceWidth)

end Batpak.Bvisor
