/-
Module: Batpak.Bvisor.Validate
Purpose: The structural validator of admission programs, the trust sink for decoded bytes: checks,
  limits and certificate.
Trusted boundary: the canonical encoding and its hash are parameters
Main exports: ProgramCodec, ProgramLimits
-/
import Batpak.Bvisor.Lowering
import Batpak.Bvisor.Program

namespace Batpak.Bvisor

/-! ### Depth and certificate -/

def ceilLog2 (n : Nat) : Nat :=
  if n ≤ 1 then 0 else Nat.size (n - 1)

namespace NodeOp

def producesSingleBit : NodeOp → Bool
  | eq => true
  | compare _ => true
  | bitsetSubset => true
  | and => true
  | or => true
  | not => true
  | constant _ => false
  | input _ => false
  | bitsetIntersection => false
  | select => false
  | boundedLookup _ => false

/-- The bit-level depth the op adds over lanes of the given width. -/
def bitCost (governingWidth : Width) : NodeOp → Nat
  | constant _ => 0
  | input _ => 0
  | and => 1
  | or => 1
  | not => 1
  | select => 1
  | bitsetIntersection => 1
  | eq => ceilLog2 governingWidth.bits + 1
  | compare _ => ceilLog2 governingWidth.bits + 1
  | bitsetSubset => ceilLog2 governingWidth.bits + 1
  | boundedLookup table => ceilLog2 (min table.entries.length u32Max) + 1

end NodeOp

structure CertNode where
  operands : List NodeId
  width : Width
  bitLevel : Nat
  singleBit : Bool
  deriving Repr, Inhabited, DecidableEq

structure ProgramCertificate where
  schemaVersion : Nat
  nodeCount : Nat
  inputWidth : Width
  bitDepth : Nat
  nodes : List CertNode
  digest : Digest32
  deriving DecidableEq

/-- The canonical encoder and decoder of programs, and the hash over the bytes. -/
structure ProgramCodec where
  toBytes : AdmissionProgram → Except String (List (BitVec 8))
  fromBytes : List (BitVec 8) → Except String AdmissionProgram
  hash : List (BitVec 8) → Digest32

namespace AdmissionProgram

/-- The widest lane over inputs and nodes. -/
def maxWidth (program : AdmissionProgram) : Width :=
  let widths := program.inputs.map Width.bits ++ program.nodes.map (·.width.bits)
  (Width.new (widths.max?.getD 1)).getD .one

/-- The width of the lanes a node reduces over. The index is in range once the nodes are
validated. -/
def governingWidth (program : AdmissionProgram) (node : Node) : Width :=
  match node.operands.head? with
  | some first => (program.nodes.getD first default).width
  | none => node.width

def nodeCost (program : AdmissionProgram) (node : Node) : Nat :=
  node.op.bitCost (program.governingWidth node)

/-- The forward pass of the depth recurrence. The sum saturates. -/
def bitLevelsFrom (program : AdmissionProgram) : List Nat → List Node → List Nat
  | levels, [] => levels
  | levels, node :: rest =>
      let parentMax := (node.operands.map fun operand => levels.getD operand 0).max?.getD 0
      let level := min (program.nodeCost node + parentMax) u32Max
      bitLevelsFrom program (levels ++ [level]) rest

def bitLevels (program : AdmissionProgram) : List Nat :=
  program.bitLevelsFrom [] program.nodes

def bitDepth (program : AdmissionProgram) : Nat :=
  program.bitLevels.max?.getD 0

def digest (codec : ProgramCodec) (program : AdmissionProgram) : Except String Digest32 :=
  (codec.toBytes program).map codec.hash

def certify (codec : ProgramCodec) (program : AdmissionProgram) :
    Except String ProgramCertificate := do
  let levels := program.bitLevels
  let entries := (program.nodes.zip levels).map fun (node, level) =>
    ⟨node.operands, node.width, level, node.op.producesSingleBit⟩
  let digest ← program.digest codec
  return {
    schemaVersion := program.schemaVersion
    nodeCount := program.nodes.length
    inputWidth := program.maxWidth
    bitDepth := levels.max?.getD 0
    nodes := entries
    digest := digest }

end AdmissionProgram

/-! ### Structural limits -/

structure ProgramLimits where
  maxWidth : Nat
  nodeBase : Nat
  nodePerWidth : Nat
  depthCoeff : Nat
  depthConst : Nat
  deriving Repr, Inhabited, DecidableEq

inductive LimitViolation where
  | widthExceeded (width max : Nat)
  | nodeCountExceeded (count bound : Nat)
  | depthExceeded (depth bound : Nat)
  deriving Repr, Inhabited, DecidableEq

def frozenLimits : ProgramLimits where
  maxWidth := maxWidth
  nodeBase := 4096
  nodePerWidth := 256
  depthCoeff := 16
  depthConst := 32

namespace ProgramLimits

def maxNodes (limits : ProgramLimits) (width : Width) : Nat :=
  limits.nodeBase + limits.nodePerWidth * width.bits

/-- Both steps saturate. -/
def maxBitDepth (limits : ProgramLimits) (width : Width) : Nat :=
  min (min (limits.depthCoeff * ceilLog2 width.bits) u32Max + limits.depthConst) u32Max

def check (limits : ProgramLimits) (program : AdmissionProgram) : Except LimitViolation Unit :=
  let width := program.maxWidth
  if limits.maxWidth < width.bits then .error (.widthExceeded width.bits limits.maxWidth)
  else
    let count := program.nodes.length
    let bound := limits.maxNodes width
    if bound < count then .error (.nodeCountExceeded count bound)
    else
      let depth := program.bitDepth
      let depthBound := limits.maxBitDepth width
      if depthBound < depth then .error (.depthExceeded depth depthBound)
      else .ok ()

end ProgramLimits

/-! ### The validator -/

def maxLookupEntries : Nat := 4096

inductive ValidationError where
  | schemaVersion (found : Nat)
  | tooLarge
  | inputWidthOutOfRange (slot width : Nat)
  | nodeWidthOutOfRange (node width : Nat)
  | arity (node expected found : Nat)
  | operandOutOfRange (node operand : Nat)
  | nonCanonicalEdge (node operand : Nat)
  | operandTyping (node : Nat) (reason : String)
  | outputWidth (node : Nat) (reason : String)
  | constantBytes (node expected found : Nat)
  | inputSlotOutOfRange (node slot : Nat)
  | inputWidthMismatch (node declared input : Nat)
  | lookupKeyWidth (node expected found : Nat)
  | lookupBound (node : Nat) (reason : String)
  | outputRefOutOfRange (which : String) (id : Nat)
  | outputNotPredicate (which : String) (width : Nat)
  | refusalCodeTooWide (width : Nat)
  | limit (violation : LimitViolation)
  | certificateMismatch
  | malformedEncoding
  | nonCanonicalEncoding
  | encoding
  deriving Repr, Inhabited, DecidableEq

abbrev Validated := Except ValidationError

def Width.inRange (width : Width) : Prop :=
  1 ≤ width.bits ∧ width.bits ≤ maxWidth

instance (width : Width) : Decidable width.inRange :=
  inferInstanceAs (Decidable (_ ∧ _))

/-- Saturating, for the fields of an error. -/
def declaredU16 (value : Nat) : Nat :=
  min value u16Max

def requirePredicateOutput (node declared : Nat) : Validated Unit :=
  if declared = 1 then .ok () else .error (.outputWidth node "predicate output must be 1 bit")

def checkConstant (node : Nat) (bytes : List (BitVec 8)) (declared : Nat) : Validated Unit :=
  let need := (declared + 7) / 8
  if bytes.length = need then .ok () else .error (.constantBytes node need bytes.length)

def checkInput (node slot declared : Nat) (inputs : List Width) : Validated Unit :=
  match inputs[slot]? with
  | none => .error (.inputSlotOutOfRange node slot)
  | some decl =>
      if decl.bits = declared then .ok ()
      else .error (.inputWidthMismatch node (declaredU16 declared) decl.bits)

def checkPredicateBinary (node : Nat) (ow : List Nat) (declared : Nat) : Validated Unit :=
  if ow.getD 0 0 ≠ ow.getD 1 0 then
    .error (.operandTyping node "binary operands must share a width")
  else requirePredicateOutput node declared

def checkIntersection (node : Nat) (ow : List Nat) (declared : Nat) : Validated Unit :=
  if ow.getD 0 0 ≠ ow.getD 1 0 then
    .error (.operandTyping node "intersection operands must share a width")
  else if declared = ow.getD 0 0 then .ok ()
  else .error (.outputWidth node "intersection output width must equal the operand width")

def checkBoolBinary (node : Nat) (ow : List Nat) (declared : Nat) : Validated Unit :=
  if ow.getD 0 0 ≠ 1 ∨ ow.getD 1 0 ≠ 1 then
    .error (.operandTyping node "boolean operands must be 1 bit")
  else requirePredicateOutput node declared

def checkBoolUnary (node : Nat) (ow : List Nat) (declared : Nat) : Validated Unit :=
  if ow.getD 0 0 ≠ 1 then .error (.operandTyping node "NOT operand must be 1 bit")
  else requirePredicateOutput node declared

def checkSelect (node : Nat) (ow : List Nat) (declared : Nat) : Validated Unit :=
  if ow.getD 0 0 ≠ 1 then .error (.operandTyping node "select condition must be 1 bit")
  else if ow.getD 1 0 ≠ ow.getD 2 0 then
    .error (.operandTyping node "select arms must share a width")
  else if declared = ow.getD 1 0 then .ok ()
  else .error (.outputWidth node "select output width must equal the arm width")

def checkLookup (node : Nat) (table : LookupTable) (ow : List Nat) (declared : Nat) :
    Validated Unit :=
  if ¬table.keyWidth.inRange then .error (.lookupBound node "key width out of range")
  else if ow.getD 0 0 ≠ table.keyWidth.bits then
    .error (.lookupKeyWidth node table.keyWidth.bits (declaredU16 (ow.getD 0 0)))
  else if maxLookupEntries < table.entries.length then
    .error (.lookupBound node "entry count exceeds MAX_LOOKUP_ENTRIES")
  else if table.entries.any fun entry => entry.length ≠ (declared + 7) / 8 then
    .error (.lookupBound node "an entry's byte length does not match the output width")
  else .ok ()

def validateOp (node : Nat) (op : NodeOp) (ow : List Nat) (declared : Nat)
    (inputs : List Width) : Validated Unit :=
  match op with
  | .constant bytes => checkConstant node bytes declared
  | .input slot => checkInput node slot declared inputs
  | .eq => checkPredicateBinary node ow declared
  | .compare _ => checkPredicateBinary node ow declared
  | .bitsetSubset => checkPredicateBinary node ow declared
  | .bitsetIntersection => checkIntersection node ow declared
  | .and => checkBoolBinary node ow declared
  | .or => checkBoolBinary node ow declared
  | .not => checkBoolUnary node ow declared
  | .select => checkSelect node ow declared
  | .boundedLookup table => checkLookup node table ow declared

/-- The widths of the operands, all of them earlier nodes. -/
def operandWidths (node nodeCount : Nat) (widths : List Width) :
    List NodeId → Validated (List Nat)
  | [] => .ok []
  | operand :: rest =>
      if nodeCount ≤ operand then .error (.operandOutOfRange node operand)
      else if node ≤ operand then .error (.nonCanonicalEdge node operand)
      else
        match widths[operand]? with
        | none => .error (.operandOutOfRange node operand)
        | some width => do
            let others ← operandWidths node nodeCount widths rest
            return width.bits :: others

def validateNode (i : Nat) (node : Node) (nodeCount : Nat) (widths inputs : List Width) :
    Validated Unit :=
  if ¬node.width.inRange then .error (.nodeWidthOutOfRange i node.width.bits)
  else if node.operands.length ≠ node.op.operandCount then
    .error (.arity i node.op.operandCount node.operands.length)
  else do
    let ow ← operandWidths i nodeCount widths node.operands
    validateOp i node.op ow node.width.bits inputs

def validateInputs : Nat → List Width → Validated Unit
  | _, [] => .ok ()
  | slot, decl :: rest =>
      if ¬decl.inRange then .error (.inputWidthOutOfRange slot decl.bits)
      else validateInputs (slot + 1) rest

/-- The nodes in order, with the widths of those before. -/
def validateNodesFrom (nodeCount : Nat) (inputs : List Width) :
    List Width → List Node → Validated (List Width)
  | widths, [] => .ok widths
  | widths, node :: rest => do
      validateNode widths.length node nodeCount widths inputs
      validateNodesFrom nodeCount inputs (widths ++ [node.width]) rest

def validateNodes (program : AdmissionProgram) : Validated (List Width) :=
  if u32Max < program.nodes.length then .error .tooLarge
  else validateNodesFrom program.nodes.length program.inputs [] program.nodes

def outputWidth (widths : List Width) (which : String) (id : NodeId) : Validated Nat :=
  match widths[id]? with
  | some width => .ok width.bits
  | none => .error (.outputRefOutOfRange which id)

/-- A one-bit output. -/
def predicateOutput (widths : List Width) (which : String) (id : NodeId) : Validated Unit := do
  let width ← outputWidth widths which id
  if width ≠ 1 then .error (.outputNotPredicate which width) else .ok ()

def membraneOutputs (widths : List Width) : List NodeId → Validated Unit
  | [] => .ok ()
  | membrane :: rest => do
      predicateOutput widths "membrane" membrane
      membraneOutputs widths rest

def validateOutputs (outputs : Outputs) (widths : List Width) : Validated Unit := do
  predicateOutput widths "admit" outputs.admitBit
  let refusalWidth ← outputWidth widths "refusal_code" outputs.refusalCode
  if 64 < refusalWidth then .error (.refusalCodeTooWide refusalWidth)
  else membraneOutputs widths outputs.membranes

def validate (codec : ProgramCodec) (program : AdmissionProgram) (limits : ProgramLimits) :
    Validated ProgramCertificate :=
  if program.schemaVersion ≠ admissionProgramSchemaVersion then
    .error (.schemaVersion program.schemaVersion)
  else do
    validateInputs 0 program.inputs
    let widths ← validateNodes program
    validateOutputs program.outputs widths
    (limits.check program).mapError .limit
    (program.certify codec).mapError fun _ => .encoding

/-- The wall before untrusted bytes: they must be the canonical encoding of what they decode
to. -/
def decodeValidated (codec : ProgramCodec) (bytes : List (BitVec 8)) (limits : ProgramLimits) :
    Validated AdmissionProgram := do
  let program ← (codec.fromBytes bytes).mapError fun _ => .malformedEncoding
  let _ ← validate codec program limits
  let reencoded ← (codec.toBytes program).mapError fun _ => .encoding
  if reencoded = bytes then .ok program else .error .nonCanonicalEncoding

end Batpak.Bvisor
