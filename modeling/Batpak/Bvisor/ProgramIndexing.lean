/-
Module: Batpak.Bvisor.ProgramIndexing
Purpose: Evaluation, depth, certificate and limit check of a program with every index expression
  written out, as an access past the end panics in the source.
Trusted boundary: canonical encoder and hash are parameters
Main exports: evaluateIndexed, AdmissionProgram.bitLevelsIndexed
-/
import Batpak.Bvisor.Validate

namespace Batpak.Bvisor

/-! ### The evaluator -/

/-- One node. The operands of a conjunction or disjunction are looked up from left to right, and
the second one only when the first does not decide. -/
def evalNodeIndexed (i : Nat) (node : Node) (operands : List Lane) (inputs : List Lane) :
    Option (Except EvalError Lane) :=
  let declared := node.width.bits
  match node.op with
  | .constant bytes => some (opConstant i bytes node.width)
  | .input slot => some (opInput i slot declared inputs)
  | .eq => do
      let a ← operands[0]?
      let b ← operands[1]?
      return opEq i a b declared
  | .compare rel => do
      let a ← operands[0]?
      let b ← operands[1]?
      return opCompare i rel a b declared
  | .bitsetSubset => do
      let a ← operands[0]?
      let b ← operands[1]?
      return opSubset i a b declared
  | .bitsetIntersection => do
      let a ← operands[0]?
      let b ← operands[1]?
      return opIntersection i a b declared
  | .and => do
      let a ← operands[0]?
      let both ← if a.lowBit then (operands[1]?).map Lane.lowBit else some false
      return requireWidth i declared 1 [both]
  | .or => do
      let a ← operands[0]?
      let either ← if a.lowBit then some true else (operands[1]?).map Lane.lowBit
      return requireWidth i declared 1 [either]
  | .not => do
      let a ← operands[0]?
      return requireWidth i declared 1 [!a.lowBit]
  | .select => do
      let cond ← operands[0]?
      let a ← operands[1]?
      let b ← operands[2]?
      return opSelect i cond a b declared
  | .boundedLookup table => do
      let key ← operands[0]?
      return requireWidth i declared declared (lookup table key node.width)

/-- The forward pass; an error ends it. -/
def evalNodesIndexed (inputs : List Lane) :
    List Lane → List Node → Option (Except EvalError (List Lane))
  | values, [] => some (.ok values)
  | values, node :: rest =>
      match resolveAll values values.length node.operands with
      | .error e => some (.error e)
      | .ok operands =>
          match evalNodeIndexed values.length node operands inputs with
          | none => none
          | some (.error e) => some (.error e)
          | some (.ok lane) => evalNodesIndexed inputs (values ++ [lane]) rest

def evaluateIndexed (program : AdmissionProgram) (inputs : List Lane) :
    Option (Except EvalError Decision) :=
  if inputs.length ≠ program.inputs.length then
    some (.error (.inputCountMismatch program.inputs.length inputs.length))
  else
    match checkInputs 0 program.inputs inputs with
    | .error e => some (.error e)
    | .ok () =>
        (evalNodesIndexed inputs [] program.nodes).map fun values =>
          values.bind fun values => readOutputs values program.outputs

/-! ### Depth, certificate and limits -/

namespace AdmissionProgram

/-- `self.nodes[index_of(*first)].width` -/
def governingWidthIndexed (program : AdmissionProgram) (node : Node) : Option Width :=
  match node.operands.head? with
  | some first => (program.nodes[first]?).map (·.width)
  | none => some node.width

/-- The forward pass, with `levels[index_of(*operand)]` in range or a panic. -/
def bitLevelsFromIndexed (program : AdmissionProgram) :
    List Nat → List Node → Option (List Nat)
  | levels, [] => some levels
  | levels, node :: rest => do
      let governing ← program.governingWidthIndexed node
      let parents ← node.operands.mapM fun operand => levels[operand]?
      let level := min (node.op.bitCost governing + parents.max?.getD 0) u32Max
      bitLevelsFromIndexed program (levels ++ [level]) rest

def bitLevelsIndexed (program : AdmissionProgram) : Option (List Nat) :=
  program.bitLevelsFromIndexed [] program.nodes

def certifyIndexed (codec : ProgramCodec) (program : AdmissionProgram) :
    Option (Except String ProgramCertificate) := do
  let levels ← program.bitLevelsIndexed
  let entries := (program.nodes.zip levels).map fun (node, level) =>
    (⟨node.operands, node.width, level, node.op.producesSingleBit⟩ : CertNode)
  return (program.digest codec).map fun digest => {
    schemaVersion := program.schemaVersion
    nodeCount := program.nodes.length
    inputWidth := program.maxWidth
    bitDepth := levels.max?.getD 0
    nodes := entries
    digest := digest }

end AdmissionProgram

namespace ProgramLimits

def checkIndexed (limits : ProgramLimits) (program : AdmissionProgram) :
    Option (Except LimitViolation Unit) :=
  let width := program.maxWidth
  if limits.maxWidth < width.bits then some (.error (.widthExceeded width.bits limits.maxWidth))
  else
    let count := program.nodes.length
    let bound := limits.maxNodes width
    if bound < count then some (.error (.nodeCountExceeded count bound))
    else do
      let depth := (← program.bitLevelsIndexed).max?.getD 0
      let depthBound := limits.maxBitDepth width
      if depthBound < depth then return .error (.depthExceeded depth depthBound)
      else return .ok ()

end ProgramLimits

end Batpak.Bvisor
