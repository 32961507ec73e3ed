/-
Module: Batpak.Bvisor.Program
Purpose: The admission circuit: nodes over a closed vocabulary in topological order, the
  constructor that checks the order, and the evaluator with its typing errors.
Trusted boundary: none
Main exports: Width, NodeOp
-/
import Batpak.Util.Bits

namespace Batpak.Bvisor

/-! ### The representation -/

def maxWidth : Nat := 256

/-- Bit width of a lane. Only the constructor keeps it in range: decoded bytes hold any
width. -/
structure Width where
  bits : Nat
  deriving Repr, DecidableEq

namespace Width

def new (bits : Nat) : Option Width :=
  if 1 ≤ bits ∧ bits ≤ maxWidth then some ⟨bits⟩ else none

def one : Width :=
  ⟨1⟩

instance : Inhabited Width :=
  ⟨one⟩

end Width

def u16Max : Nat := 2 ^ 16 - 1

def u32Max : Nat := 2 ^ 32 - 1

inductive CompareRel where
  | ule
  | ult
  deriving Repr, Inhabited, DecidableEq

structure LookupTable where
  keyWidth : Width
  entries : List (List (BitVec 8))
  deriving Repr, Inhabited, DecidableEq

inductive NodeOp where
  | constant (bytes : List (BitVec 8))
  | input (slot : Nat)
  | eq
  | compare (rel : CompareRel)
  | bitsetSubset
  | bitsetIntersection
  | and
  | or
  | not
  | select
  | boundedLookup (table : LookupTable)
  deriving Repr, Inhabited, DecidableEq

def NodeOp.operandCount : NodeOp → Nat
  | constant _ => 0
  | input _ => 0
  | not => 1
  | boundedLookup _ => 1
  | eq => 2
  | compare _ => 2
  | bitsetSubset => 2
  | bitsetIntersection => 2
  | and => 2
  | or => 2
  | select => 3

abbrev NodeId := Nat

structure Node where
  op : NodeOp
  operands : List NodeId
  width : Width
  deriving Repr, Inhabited, DecidableEq

structure Outputs where
  admitBit : NodeId
  refusalCode : NodeId
  membranes : List NodeId
  deriving Repr, Inhabited, DecidableEq

inductive ProgramError where
  | nodeIdOutOfRange (node referenced : NodeId)
  | nonCanonicalEdge (node referenced : NodeId)
  | arityMismatch (node expected found : Nat)
  | tooManyNodes (count : Nat)
  deriving Repr, Inhabited, DecidableEq

def admissionProgramSchemaVersion : Nat := 1

/-- A circuit. The operands of one that was built here all point backwards. -/
structure AdmissionProgram where
  schemaVersion : Nat
  inputs : List Width
  nodes : List Node
  outputs : Outputs
  deriving Repr, Inhabited, DecidableEq

namespace AdmissionProgram

def checkOperands (node nodeCount : Nat) : List NodeId → Except ProgramError Unit
  | [] => .ok ()
  | operand :: rest =>
      if nodeCount ≤ operand then .error (.nodeIdOutOfRange node operand)
      else if node ≤ operand then .error (.nonCanonicalEdge node operand)
      else checkOperands node nodeCount rest

def checkNodes (nodeCount : Nat) : Nat → List Node → Except ProgramError Unit
  | _, [] => .ok ()
  | i, node :: rest =>
      if node.operands.length ≠ node.op.operandCount then
        .error (.arityMismatch i node.op.operandCount node.operands.length)
      else
        match checkOperands i nodeCount node.operands with
        | .error e => .error e
        | .ok () => checkNodes nodeCount (i + 1) rest

def checkOutputs (nodeCount : Nat) : List NodeId → Except ProgramError Unit
  | [] => .ok ()
  | output :: rest =>
      if nodeCount ≤ output then .error (.nodeIdOutOfRange u32Max output)
      else checkOutputs nodeCount rest

def new (inputs : List Width) (nodes : List Node) (outputs : Outputs) :
    Except ProgramError AdmissionProgram :=
  let count := nodes.length
  if u32Max < count then .error (.tooManyNodes count)
  else
    match checkNodes count 0 nodes with
    | .error e => .error e
    | .ok () =>
        match checkOutputs count (outputs.membranes ++ [outputs.admitBit, outputs.refusalCode]) with
        | .error e => .error e
        | .ok () => .ok ⟨admissionProgramSchemaVersion, inputs, nodes, outputs⟩

end AdmissionProgram

/-! ### Lanes -/

/-- A value lane, least significant bit first. -/
abbrev Lane := List Bool

namespace Lane

/-- Decode from little-endian bytes, zero-extending. -/
def fromLeBytes (bytes : List (BitVec 8)) (width : Width) : Lane :=
  (List.range width.bits).map fun i => (bytes.getD (i / 8) 0).getLsbD (i % 8)

def zeros (width : Width) : Lane :=
  List.replicate width.bits false

def lowBit (lane : Lane) : Bool :=
  lane.headD false

/-- The value, unless a bit from 64 on is set. -/
def toU64 (lane : Lane) : Option Nat :=
  if (lane.drop 64).any id then none
  else some (lane.foldr (fun b value => (if b then 1 else 0) + 2 * value) 0)

/-- Comparison from the most significant bit down. -/
def cmpFrom : List Bool → List Bool → Ordering
  | a :: as, b :: bs =>
      match a, b with
      | true, false => .gt
      | false, true => .lt
      | _, _ => cmpFrom as bs
  | _, _ => .eq

def cmpUnsigned (a b : Lane) : Ordering :=
  cmpFrom a.reverse b.reverse

end Lane

/-! ### The evaluator -/

inductive EvalError where
  | inputCountMismatch (expected found : Nat)
  | inputWidthMismatch (slot expected found : Nat)
  | inputSlotOutOfRange (node slot : Nat)
  | constantWidthMismatch (node expected found : Nat)
  | operandWidthMismatch (node left right : Nat)
  | resultWidthMismatch (node expected found : Nat)
  | refusalCodeTooWide (width : Nat)
  | nonPredicateOutput (which : String) (width : Nat)
  | malformed (node : Nat)
  deriving Repr, Inhabited, DecidableEq

def resolve (values : List Lane) (node : Nat) (id : NodeId) : Except EvalError Lane :=
  match values[id]? with
  | some lane => .ok lane
  | none => .error (.malformed node)

def requireWidth (node declared produced : Nat) (lane : Lane) : Except EvalError Lane :=
  if declared = produced then .ok lane else .error (.resultWidthMismatch node produced declared)

def requirePair (node : Nat) (a b : Lane) : Except EvalError Nat :=
  if a.length = b.length then .ok a.length
  else .error (.operandWidthMismatch node a.length b.length)

def opConstant (node : Nat) (bytes : List (BitVec 8)) (width : Width) : Except EvalError Lane :=
  let need := (width.bits + 7) / 8
  if bytes.length ≠ need then .error (.constantWidthMismatch node need bytes.length)
  else .ok (Lane.fromLeBytes bytes width)

def opInput (node slot declared : Nat) (inputs : List Lane) : Except EvalError Lane :=
  match inputs[slot]? with
  | some lane => requireWidth node declared lane.length lane
  | none => .error (.inputSlotOutOfRange node slot)

def opEq (node : Nat) (a b : Lane) (declared : Nat) : Except EvalError Lane := do
  let _ ← requirePair node a b
  requireWidth node declared 1 [decide (a = b)]

def opCompare (node : Nat) (rel : CompareRel) (a b : Lane) (declared : Nat) :
    Except EvalError Lane := do
  let _ ← requirePair node a b
  let ord := Lane.cmpUnsigned a b
  let value := match rel with
    | .ule => decide (ord ≠ .gt)
    | .ult => decide (ord = .lt)
  requireWidth node declared 1 [value]

def opSubset (node : Nat) (a b : Lane) (declared : Nat) : Except EvalError Lane := do
  let _ ← requirePair node a b
  requireWidth node declared 1 [(a.zip b).all fun (ai, bi) => !ai || bi]

def opIntersection (node : Nat) (a b : Lane) (declared : Nat) : Except EvalError Lane := do
  let width ← requirePair node a b
  requireWidth node declared width ((a.zip b).map fun (ai, bi) => ai && bi)

def opSelect (node : Nat) (cond a b : Lane) (declared : Nat) : Except EvalError Lane := do
  let width ← requirePair node a b
  requireWidth node declared width (if cond.lowBit then a else b)

/-- A key that is too wide or out of range selects zeros. -/
def lookup (table : LookupTable) (key : Lane) (width : Width) : Lane :=
  match key.toU64 with
  | some index =>
      match table.entries[index]? with
      | some entry => Lane.fromLeBytes entry width
      | none => Lane.zeros width
  | none => Lane.zeros width

/-- One node over the lanes of its operands, whose number the constructor has checked. -/
def evalNode (i : Nat) (node : Node) (operands : List Lane) (inputs : List Lane) :
    Except EvalError Lane :=
  let declared := node.width.bits
  let a := operands.getD 0 []
  let b := operands.getD 1 []
  let c := operands.getD 2 []
  match node.op with
  | .constant bytes => opConstant i bytes node.width
  | .input slot => opInput i slot declared inputs
  | .eq => opEq i a b declared
  | .compare rel => opCompare i rel a b declared
  | .bitsetSubset => opSubset i a b declared
  | .bitsetIntersection => opIntersection i a b declared
  | .and => requireWidth i declared 1 [a.lowBit && b.lowBit]
  | .or => requireWidth i declared 1 [a.lowBit || b.lowBit]
  | .not => requireWidth i declared 1 [!a.lowBit]
  | .select => opSelect i a b c declared
  | .boundedLookup table => requireWidth i declared declared (lookup table a node.width)

def resolveAll (values : List Lane) (node : Nat) : List NodeId → Except EvalError (List Lane)
  | [] => .ok []
  | id :: rest => do
      let lane ← resolve values node id
      let lanes ← resolveAll values node rest
      return lane :: lanes

/-- The forward pass. -/
def evalNodes (inputs : List Lane) : List Lane → List Node → Except EvalError (List Lane)
  | values, [] => .ok values
  | values, node :: rest => do
      let operands ← resolveAll values values.length node.operands
      let lane ← evalNode values.length node operands inputs
      evalNodes inputs (values ++ [lane]) rest

structure Decision where
  admitted : Bool
  refusalCode : Nat
  membranes : List Bool
  deriving Repr, Inhabited, DecidableEq

def readPredicate (values : List Lane) (which : String) (id : NodeId) : Except EvalError Bool := do
  let lane ← resolve values u32Max id
  if lane.length ≠ 1 then .error (.nonPredicateOutput which lane.length)
  else .ok lane.lowBit

def readPredicates (values : List Lane) : List NodeId → Except EvalError (List Bool)
  | [] => .ok []
  | id :: rest => do
      let bit ← readPredicate values "membrane" id
      let bits ← readPredicates values rest
      return bit :: bits

def checkInputs : Nat → List Width → List Lane → Except EvalError Unit
  | slot, decl :: decls, lane :: lanes =>
      if lane.length ≠ decl.bits then .error (.inputWidthMismatch slot decl.bits lane.length)
      else checkInputs (slot + 1) decls lanes
  | _, _, _ => .ok ()

def readOutputs (values : List Lane) (outputs : Outputs) : Except EvalError Decision := do
  let admitBit ← readPredicate values "admit" outputs.admitBit
  let refusalLane ← resolve values u32Max outputs.refusalCode
  match refusalLane.toU64 with
  | none => .error (.refusalCodeTooWide refusalLane.length)
  | some refusal => do
      let membranes ← readPredicates values outputs.membranes
      return ⟨admitBit, refusal, membranes⟩

def evaluate (program : AdmissionProgram) (inputs : List Lane) : Except EvalError Decision :=
  if inputs.length ≠ program.inputs.length then
    .error (.inputCountMismatch program.inputs.length inputs.length)
  else do
    checkInputs 0 program.inputs inputs
    let values ← evalNodes inputs [] program.nodes
    readOutputs values program.outputs

end Batpak.Bvisor
