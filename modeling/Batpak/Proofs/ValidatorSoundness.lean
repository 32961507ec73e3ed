/-
Module: Batpak.Proofs.ValidatorSoundness
Purpose: What the validator accepts evaluates, on every input vector of the declared widths, at
  the certified levels.
Trusted boundary: none
Main exports: evalNode_of_validateOp, evalNodes_of_validated
-/
import Batpak.Bvisor.Validate
import Batpak.Proofs.CircuitMembranes

namespace Batpak.Bvisor

open Batpak.Util

variable {declared wa wb : Nat}
variable {widths : List Width}

/-! ### One node -/

section Node

variable {i j : Nat} {width : Width} {lanes inputs : List Lane} {decls : List Width}

theorem requirePredicateOutput_ok (h : requirePredicateOutput i declared = .ok ()) :
    declared = 1 := by
  unfold requirePredicateOutput at h
  split_ifs at h with hone
  exact hone

/-- A predicate node whose declared width is one bit. -/
theorem predicate_total (bit : Bool) (h : requirePredicateOutput i width.bits = .ok ()) :
    ∃ lane, requireWidth j width.bits 1 [bit] = .ok lane ∧ lane.length = width.bits := by
  have hone := requirePredicateOutput_ok h
  exact ⟨[bit], if_pos hone, hone.symm⟩

theorem checkPredicateBinary_ok (h : checkPredicateBinary i [wa, wb] declared = .ok ()) :
    wa = wb ∧ requirePredicateOutput i declared = .ok () := by
  unfold checkPredicateBinary at h
  split_ifs at h with hne
  exact ⟨not_not.mp hne, h⟩

theorem checkBoolBinary_ok (h : checkBoolBinary i [wa, wb] declared = .ok ()) :
    requirePredicateOutput i declared = .ok () := by
  unfold checkBoolBinary at h
  split_ifs at h
  exact h

theorem checkBoolUnary_ok (h : checkBoolUnary i [wa] declared = .ok ()) :
    requirePredicateOutput i declared = .ok () := by
  unfold checkBoolUnary at h
  split_ifs at h
  exact h

theorem checkIntersection_ok (h : checkIntersection i [wa, wb] declared = .ok ()) :
    wa = wb ∧ declared = wa := by
  unfold checkIntersection at h
  split_ifs at h with hne hdeclared
  exact ⟨not_not.mp hne, hdeclared⟩

theorem checkSelect_ok {wc : Nat} (h : checkSelect i [wc, wa, wb] declared = .ok ()) :
    wa = wb ∧ declared = wa := by
  unfold checkSelect at h
  split_ifs at h with _ hne hdeclared
  exact ⟨not_not.mp hne, hdeclared⟩

theorem length_lookup (table : LookupTable) (key : Lane) :
    (lookup table key width).length = width.bits := by
  have hbytes : ∀ entry, (Lane.fromLeBytes entry width).length = width.bits := by
    simp [Lane.fromLeBytes]
  have hzeros : (Lane.zeros width).length = width.bits := List.length_replicate
  unfold lookup
  split
  · split
    · exact hbytes _
    · exact hzeros
  · exact hzeros

theorem opInput_total {slot : Nat} (hinputs : inputs.map List.length = decls.map Width.bits)
    (h : checkInput i slot width.bits decls = .ok ()) :
    ∃ lane, opInput j slot width.bits inputs = .ok lane ∧ lane.length = width.bits := by
  unfold checkInput at h
  cases hdecl : decls[slot]? with
  | none =>
      rw [hdecl] at h
      cases h
  | some decl =>
      rw [hdecl] at h
      simp only [ite_eq_left_iff, reduceCtorEq, imp_false, not_not] at h
      have hlane := congrArg (·[slot]?) hinputs
      simp only [List.getElem?_map, hdecl, Option.map_some, Option.map_eq_some_iff] at hlane
      obtain ⟨lane, hlane, hlength⟩ := hlane
      refine ⟨lane, ?_, hlength.trans h⟩
      unfold opInput
      rw [hlane]
      exact if_pos (hlength.trans h).symm

/-- The eleven typings of the validator line up with the checks of the evaluator. -/
theorem evalNode_of_validateOp {node : Node}
    (hinputs : inputs.map List.length = decls.map Width.bits)
    (harity : lanes.length = node.op.operandCount)
    (h : validateOp i node.op (lanes.map List.length) node.width.bits decls = .ok ()) :
    ∃ lane, evalNode j node lanes inputs = .ok lane ∧ lane.length = node.width.bits := by
  obtain ⟨op, operands, width⟩ := node
  unfold evalNode
  cases op with
  | constant bytes =>
      refine ⟨Lane.fromLeBytes bytes width, ?_, by simp [Lane.fromLeBytes]⟩
      simp only [validateOp, checkConstant] at h
      split_ifs at h with hlength
      simp [opConstant, hlength]
  | input slot => exact opInput_total hinputs h
  | not =>
      obtain ⟨a, rfl⟩ := List.length_eq_one_iff.mp harity
      exact predicate_total _ (checkBoolUnary_ok h)
  | boundedLookup table =>
      obtain ⟨a, rfl⟩ := List.length_eq_one_iff.mp harity
      exact ⟨lookup table a width, if_pos rfl, length_lookup table a⟩
  | eq =>
      obtain ⟨a, b, rfl⟩ := List.length_eq_two.mp harity
      obtain ⟨hpair, hone⟩ := checkPredicateBinary_ok h
      simp only [opEq, List.getD_cons_zero, List.getD_cons_succ, requirePair_ok hpair]
      exact predicate_total _ hone
  | compare rel =>
      obtain ⟨a, b, rfl⟩ := List.length_eq_two.mp harity
      obtain ⟨hpair, hone⟩ := checkPredicateBinary_ok h
      simp only [opCompare, List.getD_cons_zero, List.getD_cons_succ, requirePair_ok hpair]
      exact predicate_total _ hone
  | bitsetSubset =>
      obtain ⟨a, b, rfl⟩ := List.length_eq_two.mp harity
      obtain ⟨hpair, hone⟩ := checkPredicateBinary_ok h
      simp only [opSubset, List.getD_cons_zero, List.getD_cons_succ, requirePair_ok hpair]
      exact predicate_total _ hone
  | bitsetIntersection =>
      obtain ⟨a, b, rfl⟩ := List.length_eq_two.mp harity
      obtain ⟨hpair, hwidth⟩ := checkIntersection_ok h
      simp only [opIntersection, List.getD_cons_zero, List.getD_cons_succ, requirePair_ok hpair]
      refine ⟨_, if_pos hwidth, ?_⟩
      rw [List.length_map, List.length_zip, hpair, Nat.min_self, ← hpair, hwidth]
  | and =>
      obtain ⟨a, b, rfl⟩ := List.length_eq_two.mp harity
      exact predicate_total _ (checkBoolBinary_ok h)
  | or =>
      obtain ⟨a, b, rfl⟩ := List.length_eq_two.mp harity
      exact predicate_total _ (checkBoolBinary_ok h)
  | select =>
      obtain ⟨c, a, b, rfl⟩ := List.length_eq_three.mp harity
      obtain ⟨hpair, hwidth⟩ := checkSelect_ok h
      simp only [opSelect, List.getD_cons_zero, List.getD_cons_succ, requirePair_ok hpair]
      refine ⟨_, if_pos hwidth, ?_⟩
      split_ifs
      · exact hwidth.symm
      · rw [← hpair, hwidth]

end Node

/-! ### The indices -/

/-- Every index the evaluator and the depth recurrence take is in range: the operands are as
many as the op reads, they are earlier nodes, and the outputs are nodes. -/
structure InRange (program : AdmissionProgram) : Prop where
  arity : ∀ node ∈ program.nodes, node.operands.length = node.op.operandCount
  earlier : ∀ (i : Nat) (node : Node), program.nodes[i]? = some node →
    ∀ operand ∈ node.operands, operand < i
  outputs : ∀ id ∈ program.outputs.membranes ++
    [program.outputs.admitBit, program.outputs.refusalCode], id < program.nodes.length

/-- The widths of the operands are those of the nodes they name. -/
theorem operandWidths_ok {i nodeCount : Nat} {operands : List NodeId}
    {ow : List Nat} (h : operandWidths i nodeCount widths operands = .ok ow) :
    List.Forall₂ (fun operand bits => operand < i ∧
      widths[operand]?.map Width.bits = some bits) operands ow := by
  induction operands generalizing ow with
  | nil =>
      cases h
      exact .nil
  | cons operand rest ih =>
      unfold operandWidths at h
      split_ifs at h with hcount hearlier
      cases hwidth : widths[operand]? with
      | none =>
          rw [hwidth] at h
          cases h
      | some width =>
          simp only [hwidth, bindOk_iff] at h
          obtain ⟨others, hothers, heq⟩ := h
          cases heq
          exact .cons ⟨Nat.not_le.mp hearlier, by rw [hwidth]; rfl⟩ (ih hothers)

theorem validateNode_ok {i nodeCount : Nat} {node : Node} {widths inputs : List Width}
    (h : validateNode i node nodeCount widths inputs = .ok ()) :
    node.operands.length = node.op.operandCount ∧ ∃ ow,
      List.Forall₂ (fun operand bits => operand < i ∧
        widths[operand]?.map Width.bits = some bits) node.operands ow ∧
      validateOp i node.op ow node.width.bits inputs = .ok () := by
  unfold validateNode at h
  split_ifs at h with hrange harity
  obtain ⟨ow, how, hop⟩ := bindOk_iff.mp h
  exact ⟨not_not.mp harity, ow, operandWidths_ok how, hop⟩

/-- The lanes of the operands, when the nodes so far have lanes of their widths. -/
theorem operands_resolve {i : Nat} {values : List Lane} {operands : List NodeId} {ow : List Nat}
    (hvalues : values.map List.length = widths.map Width.bits)
    (h : List.Forall₂ (fun operand bits => operand < i ∧
      widths[operand]?.map Width.bits = some bits) operands ow) :
    ∃ lanes, List.Forall₂ (Holds values) operands lanes ∧ lanes.map List.length = ow := by
  induction h with
  | nil => exact ⟨[], .nil, rfl⟩
  | @cons operand bits operands ow hoperand _ ih =>
      obtain ⟨lanes, hlanes, how⟩ := ih
      have hlane := congrArg (·[operand]?) hvalues
      simp only [List.getElem?_map, hoperand.2, Option.map_eq_some_iff] at hlane
      obtain ⟨lane, hlane, hlength⟩ := hlane
      exact ⟨lane :: lanes, .cons hlane hlanes, by rw [List.map_cons, hlength, how]⟩

/-! ### The forward pass -/

/-- The lanes of the nodes after the first ones. -/
theorem evalNodes_of_validated {nodeCount : Nat} {decls widths result : List Width}
    {inputs values : List Lane} {nodes : List Node}
    (hinputs : inputs.map List.length = decls.map Width.bits)
    (hvalues : values.map List.length = widths.map Width.bits)
    (h : validateNodesFrom nodeCount decls widths nodes = .ok result) :
    ∃ lanes, evalNodes inputs values nodes = .ok lanes ∧
      lanes.map List.length = result.map Width.bits := by
  induction nodes generalizing widths values with
  | nil =>
      cases h
      exact ⟨values, rfl, hvalues⟩
  | cons node rest ih =>
      unfold validateNodesFrom at h
      obtain ⟨⟨⟩, hnode, hrest⟩ := bindOk_iff.mp h
      obtain ⟨harity, ow, how, hop⟩ := validateNode_ok hnode
      obtain ⟨lanes, hlanes, hlengths⟩ := operands_resolve hvalues how
      rw [← hlengths] at hop
      obtain ⟨lane, hlane, hlength⟩ := @evalNode_of_validateOp widths.length values.length lanes
        inputs decls node hinputs (hlanes.length_eq.symm.trans harity) hop
      obtain ⟨later, hlater, hwidths⟩ := @ih (widths ++ [node.width]) (values ++ [lane])
        (by simp [hvalues, hlength]) hrest
      refine ⟨later, ?_, hwidths⟩
      unfold evalNodes
      rw [resolveAll_ok hlanes]
      simp only [bind, Except.bind, hlane]
      exact hlater

theorem validateNodesFrom_widths {nodeCount : Nat} {decls widths result : List Width}
    {nodes : List Node} (h : validateNodesFrom nodeCount decls widths nodes = .ok result) :
    result = widths ++ nodes.map Node.width := by
  induction nodes generalizing widths with
  | nil =>
      cases h
      simp
  | cons node rest ih =>
      unfold validateNodesFrom at h
      obtain ⟨-, -, hrest⟩ := bindOk_iff.mp h
      rw [ih hrest]
      simp

/-- Every node was checked against the nodes before it. -/
theorem validateNodesFrom_node {nodeCount : Nat} {decls widths result : List Width}
    {nodes : List Node} (h : validateNodesFrom nodeCount decls widths nodes = .ok result)
    {i : Nat} {node : Node} (hnode : nodes[i]? = some node) :
    ∃ before, before.length = widths.length + i ∧
      validateNode (widths.length + i) node nodeCount before decls = .ok () := by
  induction nodes generalizing widths i with
  | nil => cases hnode
  | cons first rest ih =>
      unfold validateNodesFrom at h
      obtain ⟨⟨⟩, hfirst, hrest⟩ := bindOk_iff.mp h
      cases i with
      | zero =>
          cases hnode
          exact ⟨widths, rfl, hfirst⟩
      | succ i =>
          obtain ⟨before, hlength, hbefore⟩ := ih hrest hnode
          rw [List.length_append, List.length_singleton] at hlength hbefore
          exact ⟨before, by omega, by rwa [Nat.add_right_comm] at hbefore⟩

/-! ### The outputs -/

theorem predicateOutput_ok {which : String} {id : NodeId}
    (h : predicateOutput widths which id = .ok ()) :
    widths[id]?.map Width.bits = some 1 := by
  unfold predicateOutput outputWidth at h
  cases hwidth : widths[id]? with
  | none =>
      rw [hwidth] at h
      cases h
  | some width =>
      rw [hwidth] at h
      obtain ⟨bits, heq, hone⟩ := bindOk_iff.mp h
      cases heq
      split_ifs at hone with hne
      rw [Option.map_some, not_not.mp hne]

theorem membraneOutputs_ok {membranes : List NodeId}
    (h : membraneOutputs widths membranes = .ok ()) :
    ∀ id ∈ membranes, widths[id]?.map Width.bits = some 1 := by
  induction membranes with
  | nil =>
      intro id hid
      cases hid
  | cons membrane rest ih =>
      unfold membraneOutputs at h
      obtain ⟨⟨⟩, hfirst, hrest⟩ := bindOk_iff.mp h
      intro id hid
      rcases List.mem_cons.mp hid with rfl | hid
      · exact predicateOutput_ok hfirst
      · exact ih hrest id hid

theorem validateOutputs_ok {outputs : Outputs} (h : validateOutputs outputs widths = .ok ()) :
    widths[outputs.admitBit]?.map Width.bits = some 1 ∧
      (∃ bits ≤ 64, widths[outputs.refusalCode]?.map Width.bits = some bits) ∧
      ∀ id ∈ outputs.membranes, widths[id]?.map Width.bits = some 1 := by
  unfold validateOutputs at h
  obtain ⟨⟨⟩, hdecides, h⟩ := bindOk_iff.mp h
  obtain ⟨bits, hbits, h⟩ := bindOk_iff.mp h
  split_ifs at h with hwide
  refine ⟨predicateOutput_ok hdecides, ⟨bits, Nat.not_lt.mp hwide, ?_⟩, membraneOutputs_ok h⟩
  unfold outputWidth at hbits
  split at hbits
  next width hwidth =>
      cases hbits
      rw [hwidth, Option.map_some]
  next => cases hbits

/-- A node of known width has a lane of that width. -/
theorem lane_of_width {values : List Lane} {id : NodeId} {bits : Nat}
    (hvalues : values.map List.length = widths.map Width.bits)
    (h : widths[id]?.map Width.bits = some bits) :
    ∃ lane, values[id]? = some lane ∧ lane.length = bits := by
  have hlane := congrArg (·[id]?) hvalues
  simpa only [List.getElem?_map, h, Option.map_eq_some_iff] using hlane

theorem readPredicate_total {widths : List Width} {values : List Lane} {which : String}
    {id : NodeId} (hvalues : values.map List.length = widths.map Width.bits)
    (h : widths[id]?.map Width.bits = some 1) :
    ∃ bit, readPredicate values which id = .ok bit := by
  obtain ⟨lane, hlane, hlength⟩ := lane_of_width hvalues h
  obtain ⟨bit, rfl⟩ := List.length_eq_one_iff.mp hlength
  exact ⟨bit, readPredicate_ok hlane⟩

theorem readPredicates_total {values : List Lane} {ids : List NodeId}
    (hvalues : values.map List.length = widths.map Width.bits)
    (h : ∀ id ∈ ids, widths[id]?.map Width.bits = some 1) :
    ∃ bits, readPredicates values ids = .ok bits := by
  induction ids with
  | nil => exact ⟨[], rfl⟩
  | cons id rest ih =>
      obtain ⟨bit, hbit⟩ := @readPredicate_total _ _ "membrane" _ hvalues (h id List.mem_cons_self)
      obtain ⟨bits, hbits⟩ := ih fun id hid => h id (List.mem_cons_of_mem _ hid)
      refine ⟨bit :: bits, ?_⟩
      rw [readPredicates, hbit, hbits]
      rfl

theorem toU64_total {lane : Lane} (h : lane.length ≤ 64) : ∃ value, lane.toU64 = some value := by
  unfold Lane.toU64
  rw [List.drop_of_length_le h]
  exact ⟨_, rfl⟩

theorem readOutputs_total {values : List Lane} {outputs : Outputs}
    (hvalues : values.map List.length = widths.map Width.bits)
    (h : validateOutputs outputs widths = .ok ()) :
    ∃ decision, readOutputs values outputs = .ok decision := by
  obtain ⟨hdecides, ⟨bits, hbits, hrefusal⟩, hmembranes⟩ := validateOutputs_ok h
  obtain ⟨bit, hbit⟩ := @readPredicate_total _ _ "admit" _ hvalues hdecides
  obtain ⟨lane, hlane, hlength⟩ := lane_of_width hvalues hrefusal
  obtain ⟨value, hvalue⟩ := toU64_total (hlength.trans_le hbits)
  obtain ⟨membranes, hmembranes⟩ := readPredicates_total hvalues hmembranes
  have hresolve : resolve values u32Max outputs.refusalCode = .ok lane := by
    unfold resolve
    rw [hlane]
  refine ⟨⟨bit, value, membranes⟩, ?_⟩
  unfold readOutputs
  rw [hbit, hresolve]
  simp only [bind, Except.bind, hvalue, hmembranes]
  rfl

/-! ### Levels and paths -/

/-- A path along operands that ends in a node, with the sum of the costs of its nodes. -/
inductive OperandPath (program : AdmissionProgram) : NodeId → Nat → Prop where
  | start {i : NodeId} {node : Node} (hnode : program.nodes[i]? = some node) :
      OperandPath program i (program.nodeCost node)
  | step {i operand : NodeId} {node : Node} {n : Nat} (hnode : program.nodes[i]? = some node)
      (hoperand : operand ∈ node.operands) (hpath : OperandPath program operand n) :
      OperandPath program i (program.nodeCost node + n)

section Levels

variable {program : AdmissionProgram}

theorem le_max_getD {xs : List Nat} {x : Nat} (hx : x ∈ xs) : x ≤ xs.max?.getD 0 := by
  cases hmax : xs.max? with
  | none =>
      rw [List.max?_eq_none_iff.mp hmax] at hx
      cases hx
  | some m => exact (List.max?_eq_some_iff.mp hmax).2 x hx

theorem max_getD_mem {xs : List Nat} (hxs : xs ≠ []) : xs.max?.getD 0 ∈ xs := by
  cases hmax : xs.max? with
  | none => exact absurd (List.max?_eq_none_iff.mp hmax) hxs
  | some m => exact (List.max?_eq_some_iff.mp hmax).1

/-- Capping every element caps the maximum. -/
theorem max_getD_map_min (xs : List Nat) (cap : Nat) :
    (xs.map (min · cap)).max?.getD 0 = min (xs.max?.getD 0) cap := by
  cases xs with
  | nil => simp
  | cons x rest =>
      apply Nat.le_antisymm
      · have hmem : ((x :: rest).map (min · cap)).max?.getD 0 ∈ (x :: rest).map (min · cap) :=
          max_getD_mem (List.cons_ne_nil _ _)
        obtain ⟨y, hy, heq⟩ := List.mem_map.mp hmem
        rw [← heq]
        exact Nat.le_min.mpr ⟨(Nat.min_le_left _ _).trans (le_max_getD hy), Nat.min_le_right _ _⟩
      · apply le_max_getD
        exact List.mem_map_of_mem (max_getD_mem (List.cons_ne_nil x rest))

/-- The longest path to a node goes through the operand with the longest one. -/
theorem isGreatest_operandPath {i : NodeId} {node : Node} {longest : NodeId → Nat}
    (hnode : program.nodes[i]? = some node)
    (h : ∀ operand ∈ node.operands,
      IsGreatest {n | OperandPath program operand n} (longest operand)) :
    IsGreatest {n | OperandPath program i n}
      (program.nodeCost node + (node.operands.map longest).max?.getD 0) := by
  constructor
  · by_cases hnil : node.operands = []
    · rw [hnil]
      exact OperandPath.start hnode
    · have hmem : (node.operands.map longest).max?.getD 0 ∈ node.operands.map longest :=
        max_getD_mem (List.map_eq_nil_iff.not.mpr hnil)
      obtain ⟨operand, hoperand, heq⟩ := List.mem_map.mp hmem
      rw [← heq]
      exact OperandPath.step hnode hoperand (h operand hoperand).1
  · rintro n hpath
    cases hpath with
    | start hother =>
        rw [hnode] at hother
        cases hother
        exact Nat.le_add_right _ _
    | @step _ operand _ n hother hoperand hpath =>
        rw [hnode] at hother
        cases hother
        apply Nat.add_le_add_left
        exact ((h operand hoperand).2 hpath).trans
          (le_max_getD (List.mem_map_of_mem hoperand))

/-- The levels of the nodes up to some point are the capped weights of their longest paths. -/
def Levelled (program : AdmissionProgram) (longest : NodeId → Nat) (levels : List Nat) : Prop :=
  ∀ i < levels.length, IsGreatest {n | OperandPath program i n} (longest i) ∧
    levels[i]? = some (min (longest i) u32Max)

/-- One more node of the recurrence. -/
theorem Levelled.push {longest : NodeId → Nat} {levels : List Nat} {node : Node}
    (h : Levelled program longest levels) (hnode : program.nodes[levels.length]? = some node)
    (hearlier : ∀ operand ∈ node.operands, operand < levels.length) :
    ∃ longest', Levelled program longest' (levels ++ [min (program.nodeCost node +
      (node.operands.map fun operand => levels.getD operand 0).max?.getD 0) u32Max]) := by
  have hparents : (node.operands.map fun operand => levels.getD operand 0).max?.getD 0 =
      min ((node.operands.map longest).max?.getD 0) u32Max := by
    rw [← max_getD_map_min, List.map_map]
    congr 2
    apply List.map_congr_left
    intro operand hoperand
    rw [List.getD_eq_getElem?_getD, (h operand (hearlier operand hoperand)).2]
    rfl
  have hlevel : min (program.nodeCost node +
      min ((node.operands.map longest).max?.getD 0) u32Max) u32Max =
        min (program.nodeCost node + (node.operands.map longest).max?.getD 0) u32Max := by
    omega
  rw [hparents, hlevel]
  refine ⟨fun i => if i = levels.length then
    program.nodeCost node + (node.operands.map longest).max?.getD 0 else longest i, ?_⟩
  intro i hi
  rw [List.length_append, List.length_singleton] at hi
  by_cases hlast : i = levels.length
  · subst hlast
    simp only [if_true, List.getElem?_concat_length, and_true]
    exact isGreatest_operandPath hnode fun operand hoperand =>
      (h operand (hearlier operand hoperand)).1
  · have hlt : i < levels.length := by omega
    simp only [hlast, if_false, List.getElem?_append_left hlt]
    exact h i hlt

/-- The whole recurrence, from any point of the node array. -/
theorem bitLevelsFrom_levelled (hrange : InRange program) {nodes : List Node} {levels : List Nat}
    {longest : NodeId → Nat} (hnodes : program.nodes.drop levels.length = nodes)
    (h : Levelled program longest levels) :
    ∃ longest', Levelled program longest' (program.bitLevelsFrom levels nodes) ∧
      (program.bitLevelsFrom levels nodes).length = levels.length + nodes.length := by
  induction nodes generalizing levels longest with
  | nil => exact ⟨longest, h, rfl⟩
  | cons node rest ih =>
      have hnode : program.nodes[levels.length]? = some node := by
        have hhead := congrArg List.head? hnodes
        rwa [List.head?_drop] at hhead
      obtain ⟨longest', hpushed⟩ := h.push hnode (hrange.earlier _ _ hnode)
      have hrest : program.nodes.drop (levels.length + 1) = rest := by
        rw [← List.drop_drop, hnodes]
        rfl
      unfold AdmissionProgram.bitLevelsFrom
      obtain ⟨longest'', hlevelled, hlength⟩ := ih (by
        rw [List.length_append, List.length_singleton]
        exact hrest) hpushed
      refine ⟨longest'', hlevelled, ?_⟩
      rw [hlength, List.length_append, List.length_singleton, List.length_cons]
      omega

/-- The level of a node is the weight of its longest path, up to saturation. -/
theorem isGreatest_bitLevel (hrange : InRange program) {i level : Nat}
    (h : program.bitLevels[i]? = some level) :
    ∃ n, IsGreatest {n | OperandPath program i n} n ∧ level = min n u32Max := by
  obtain ⟨longest, hlevelled, -⟩ := @bitLevelsFrom_levelled program hrange program.nodes []
    (fun _ => 0) rfl (fun _ hi => absurd hi (Nat.not_lt_zero _))
  obtain ⟨hi, -⟩ := List.getElem?_eq_some_iff.mp h
  obtain ⟨hgreatest, hlevel⟩ := hlevelled i hi
  refine ⟨longest i, hgreatest, ?_⟩
  exact Option.some.inj (h.symm.trans hlevel)

end Levels

/-! ### What is accepted -/

/-- The answer on an input vector: every node gets a lane of its declared width, and there is
a decision. -/
structure Evaluates (program : AdmissionProgram) (inputs : List Lane) : Prop where
  lanes : ∃ values, evalNodes inputs [] program.nodes = .ok values ∧
    values.map List.length = program.nodes.map (·.width.bits)
  decision : ∃ decision, evaluate program inputs = .ok decision

section Accepted

variable {codec : ProgramCodec} {program : AdmissionProgram} {limits : ProgramLimits}
  {certificate : ProgramCertificate} {widths : List Width}

/-- The stages of an accepted program. -/
theorem validate_ok (h : validate codec program limits = .ok certificate) :
    ∃ widths, validateNodes program = .ok widths ∧
      validateOutputs program.outputs widths = .ok () ∧ limits.check program = .ok () ∧
      program.certify codec = .ok certificate := by
  unfold validate at h
  split_ifs at h
  obtain ⟨⟨⟩, -, h⟩ := bindOk_iff.mp h
  obtain ⟨widths, hwidths, h⟩ := bindOk_iff.mp h
  obtain ⟨⟨⟩, houtputs, h⟩ := bindOk_iff.mp h
  obtain ⟨⟨⟩, hlimits, h⟩ := bindOk_iff.mp h
  exact ⟨widths, hwidths, houtputs, mapError_ok_iff.mp hlimits, mapError_ok_iff.mp h⟩

theorem validateNodes_ok (h : validateNodes program = .ok widths) :
    validateNodesFrom program.nodes.length program.inputs [] program.nodes = .ok widths := by
  unfold validateNodes at h
  split_ifs at h
  exact h

theorem inRange_of_validated (hnodes : validateNodes program = .ok widths)
    (houtputs : validateOutputs program.outputs widths = .ok ()) : InRange program := by
  have hfrom := validateNodes_ok hnodes
  have hnode : ∀ {i : Nat} {node : Node}, program.nodes[i]? = some node →
      node.operands.length = node.op.operandCount ∧ ∀ operand ∈ node.operands, operand < i := by
    intro i node hnode
    obtain ⟨before, -, hvalid⟩ := validateNodesFrom_node hfrom hnode
    rw [List.length_nil, Nat.zero_add] at hvalid
    obtain ⟨harity, ow, how, -⟩ := validateNode_ok hvalid
    refine ⟨harity, fun operand hoperand => ?_⟩
    obtain ⟨k, hk, rfl⟩ := List.getElem_of_mem hoperand
    exact (how.get hk (how.length_eq ▸ hk)).1
  have hlt : ∀ {id : NodeId} {bits : Nat}, widths[id]?.map Width.bits = some bits →
      id < program.nodes.length := by
    intro id bits hid
    obtain ⟨width, hwidth, -⟩ := Option.map_eq_some_iff.mp hid
    have hlength := (List.getElem?_eq_some_iff.mp hwidth).1
    rw [validateNodesFrom_widths hfrom] at hlength
    simpa using hlength
  refine ⟨?_, fun i node hi => (hnode hi).2, ?_⟩
  · intro node hmem
    obtain ⟨i, hi, rfl⟩ := List.getElem_of_mem hmem
    exact (hnode (List.getElem?_eq_getElem hi)).1
  · obtain ⟨hdecides, ⟨bits, -, hrefusal⟩, hmembranes⟩ := validateOutputs_ok houtputs
    intro id hid
    rcases List.mem_append.mp hid with hid | hid
    · exact hlt (hmembranes id hid)
    · rcases List.mem_pair.mp hid with rfl | rfl
      · exact hlt hdecides
      · exact hlt hrefusal

theorem evaluates_of_validated (hnodes : validateNodes program = .ok widths)
    (houtputs : validateOutputs program.outputs widths = .ok ()) {inputs : List Lane}
    (hinputs : inputs.map List.length = program.inputs.map Width.bits) :
    Evaluates program inputs := by
  have hfrom := validateNodes_ok hnodes
  obtain ⟨values, hvalues, hlengths⟩ :=
    @evalNodes_of_validated _ _ [] _ inputs [] _ hinputs rfl hfrom
  obtain ⟨decision, hdecision⟩ := readOutputs_total hlengths houtputs
  have hwidths := validateNodesFrom_widths hfrom
  rw [List.nil_append] at hwidths
  refine ⟨⟨values, hvalues, ?_⟩, decision, ?_⟩
  · rw [hlengths, hwidths, List.map_map]
    rfl
  · have hcount : inputs.length = program.inputs.length := by
      simpa using congrArg List.length hinputs
    unfold evaluate
    simp only [hcount, ne_eq, not_true_eq_false, if_false, checkInputs_ok hinputs.symm, hvalues,
      bind, Except.bind, hdecision]

theorem certify_level (h : program.certify codec = .ok certificate) {i : Nat} {entry : CertNode}
    (hentry : certificate.nodes[i]? = some entry) :
    program.bitLevels[i]? = some entry.bitLevel := by
  unfold AdmissionProgram.certify at h
  obtain ⟨digest, -, h⟩ := bindOk_iff.mp h
  cases h
  simp only [List.getElem?_map, Option.map_eq_some_iff] at hentry
  obtain ⟨⟨node, level⟩, hzip, rfl⟩ := hentry
  exact (List.getElem?_zip_eq_some.mp hzip).2

/-- Only the encoder can stop the certificate; it has an entry for every node. -/
theorem certify_total {bytes : List (BitVec 8)} (hrange : InRange program)
    (h : codec.toBytes program = .ok bytes) :
    ∃ certificate, program.certify codec = .ok certificate ∧
      certificate.nodes.length = program.nodes.length := by
  obtain ⟨longest, -, hlength⟩ := @bitLevelsFrom_levelled program hrange program.nodes []
    (fun _ => 0) rfl (fun _ hi => absurd hi (Nat.not_lt_zero _))
  unfold AdmissionProgram.certify AdmissionProgram.digest
  rw [h]
  refine ⟨_, rfl, ?_⟩
  rw [List.length_map, List.length_zip]
  unfold AdmissionProgram.bitLevels
  rw [hlength, List.length_nil, Nat.zero_add, Nat.min_self]

theorem bitLevel_le_depth {i level : Nat} (hlimits : limits.check program = .ok ())
    (h : program.bitLevels[i]? = some level) : level ≤ limits.maxBitDepth program.maxWidth := by
  unfold ProgramLimits.check at hlimits
  simp only at hlimits
  split_ifs at hlimits with _ _ hdepth
  exact (le_max_getD (List.mem_of_getElem? h)).trans (Nat.not_lt.mp hdepth)

/-- Under any limits, on every program the validator accepts, decoded or built here: all
indices are in range, every input vector of the declared widths gives every node a lane of its
declared width and a decision, and the certified level of a node is the weight of the longest
operand path to it, up to the largest `u32`; limits that admit only a smaller depth make it
the weight itself. -/
theorem validate_sound (codec : ProgramCodec) (program : AdmissionProgram)
    (limits : ProgramLimits) (certificate : ProgramCertificate)
    (h : validate codec program limits = .ok certificate) :
    InRange program ∧
    (∀ inputs : List Lane, inputs.map List.length = program.inputs.map Width.bits →
      Evaluates program inputs) ∧
    (∀ i entry, certificate.nodes[i]? = some entry →
      (∃ n, IsGreatest {n | OperandPath program i n} n ∧ entry.bitLevel = min n u32Max) ∧
      (limits.maxBitDepth program.maxWidth < u32Max →
        IsGreatest {n | OperandPath program i n} entry.bitLevel)) := by
  obtain ⟨widths, hnodes, houtputs, hlimits, hcertify⟩ := validate_ok h
  have hrange := inRange_of_validated hnodes houtputs
  refine ⟨hrange, fun inputs => evaluates_of_validated hnodes houtputs, ?_⟩
  intro i entry hentry
  have hlevel := certify_level hcertify hentry
  obtain ⟨n, hgreatest, hmin⟩ := isGreatest_bitLevel hrange hlevel
  refine ⟨⟨n, hgreatest, hmin⟩, ?_⟩
  intro hdepth
  have hsmall := (bitLevel_le_depth hlimits hlevel).trans_lt hdepth
  have hexact : entry.bitLevel = n := by omega
  rw [hexact]
  exact hgreatest

/-- Bytes that pass the wall are of an accepted program. -/
theorem decodeValidated_accepted {bytes : List (BitVec 8)}
    (h : decodeValidated codec bytes limits = .ok program) :
    ∃ certificate, validate codec program limits = .ok certificate := by
  unfold decodeValidated at h
  obtain ⟨decoded, -, h⟩ := bindOk_iff.mp h
  obtain ⟨certificate, hcertificate, h⟩ := bindOk_iff.mp h
  obtain ⟨reencoded, -, h⟩ := bindOk_iff.mp h
  split_ifs at h
  cases h
  exact ⟨certificate, hcertificate⟩

end Accepted

/-- The input or its negation admits; the input is a membrane of its own. -/
def eitherProgram : AdmissionProgram where
  schemaVersion := 1
  inputs := [.one]
  nodes := [⟨.input 0, [], .one⟩, ⟨.not, [0], .one⟩, ⟨.or, [0, 1], .one⟩]
  outputs := ⟨2, 1, [0, 2]⟩

def eitherProgramBytes : List (BitVec 8) :=
  [0x84, 0xae, 0x73, 0x63, 0x68, 0x65, 0x6d, 0x61, 0x5f, 0x76, 0x65, 0x72, 0x73, 0x69, 0x6f, 0x6e,
    0x01, 0xa6, 0x69, 0x6e, 0x70, 0x75, 0x74, 0x73, 0x91, 0x81, 0xa5, 0x77, 0x69, 0x64, 0x74, 0x68,
    0x01, 0xa5, 0x6e, 0x6f, 0x64, 0x65, 0x73, 0x93, 0x83, 0xa2, 0x6f, 0x70, 0x81, 0xa5, 0x49, 0x6e,
    0x70, 0x75, 0x74, 0x81, 0xa4, 0x73, 0x6c, 0x6f, 0x74, 0x00, 0xa8, 0x6f, 0x70, 0x65, 0x72, 0x61,
    0x6e, 0x64, 0x73, 0x90, 0xa5, 0x77, 0x69, 0x64, 0x74, 0x68, 0x01, 0x83, 0xa2, 0x6f, 0x70, 0xa3,
    0x4e, 0x6f, 0x74, 0xa8, 0x6f, 0x70, 0x65, 0x72, 0x61, 0x6e, 0x64, 0x73, 0x91, 0x00, 0xa5, 0x77,
    0x69, 0x64, 0x74, 0x68, 0x01, 0x83, 0xa2, 0x6f, 0x70, 0xa2, 0x4f, 0x72, 0xa8, 0x6f, 0x70, 0x65,
    0x72, 0x61, 0x6e, 0x64, 0x73, 0x92, 0x00, 0x01, 0xa5, 0x77, 0x69, 0x64, 0x74, 0x68, 0x01, 0xa7,
    0x6f, 0x75, 0x74, 0x70, 0x75, 0x74, 0x73, 0x83, 0xa5, 0x61, 0x64, 0x6d, 0x69, 0x74, 0x02, 0xac,
    0x72, 0x65, 0x66, 0x75, 0x73, 0x61, 0x6c, 0x5f, 0x63, 0x6f, 0x64, 0x65, 0x01, 0xa9, 0x6d, 0x65,
    0x6d, 0x62, 0x72, 0x61, 0x6e, 0x65, 0x73, 0x92, 0x00, 0x02]

/-- The encoder, the decoder and the hash on this one program. -/
def eitherCodec : ProgramCodec where
  toBytes program :=
    if program = eitherProgram then .ok eitherProgramBytes else .error "another program"
  fromBytes bytes :=
    if bytes = eitherProgramBytes then .ok eitherProgram else .error "other bytes"
  hash _ := 0x29c43a0c2d44d9ec85e6dda79de055a228529caf9ffc15eb2abd5d50aa30efbc

theorem validate_sound_either :
    evaluate eitherProgram [[false]] = .ok ⟨true, 1, [false, true]⟩ ∧
    decodeValidated eitherCodec eitherProgramBytes frozenLimits = .ok eitherProgram ∧
    ∃ certificate, validate eitherCodec eitherProgram frozenLimits = .ok certificate ∧
      InRange eitherProgram ∧ Evaluates eitherProgram [[false]] ∧
      ∀ entry, certificate.nodes[2]? = some entry →
        IsGreatest {n | OperandPath eitherProgram 2 n} entry.bitLevel := by
  have hdecoded : decodeValidated eitherCodec eitherProgramBytes frozenLimits =
      .ok eitherProgram := by
    decide +kernel
  obtain ⟨certificate, hcertificate⟩ := decodeValidated_accepted hdecoded
  obtain ⟨hrange, hevaluates, hlevels⟩ := validate_sound _ _ _ _ hcertificate
  refine ⟨rfl, hdecoded, certificate, hcertificate, hrange, hevaluates [[false]] rfl, ?_⟩
  intro entry hentry
  exact (hlevels 2 entry hentry).2 (by decide +kernel)

/-! ### A path longer than the largest `u32` -/

/-- A lookup of two entries over the node before; it adds two levels. -/
def relay (i : NodeId) : Node :=
  ⟨.boundedLookup ⟨.one, [[0], [1]]⟩, [i], .one⟩

/-- A constant bit and `n` lookups in a row. -/
def relayChain (n : Nat) : AdmissionProgram where
  schemaVersion := 1
  inputs := []
  nodes := ⟨.constant [1], [], .one⟩ :: (List.range' 0 n).map relay
  outputs := ⟨0, 0, []⟩

/-- As many nodes and levels as there are. -/
def openLimits : ProgramLimits where
  maxWidth := 256
  nodeBase := u32Max
  nodePerWidth := 0
  depthCoeff := 0
  depthConst := u32Max

def silentCodec : ProgramCodec where
  toBytes _ := .ok []
  fromBytes _ := .error "not decoded"
  hash _ := 0

section Chain

variable {n : Nat}

theorem relayChain_length : (relayChain n).nodes.length = n + 1 := by
  simp [relayChain]

theorem relayChain_relay {i : Nat} (hi : i < n) :
    (relayChain n).nodes[i + 1]? = some (relay i) := by
  simp [relayChain, hi]

theorem validateNode_relay {i count : Nat} (hi : i + 1 < count) :
    validateNode (i + 1) (relay i) count (List.replicate (i + 1) .one) [] = .ok () := by
  have hwidths : operandWidths (i + 1) count (List.replicate (i + 1) .one) [i] = .ok [1] := by
    simp only [operandWidths, if_neg (by omega : ¬count ≤ i), if_neg (by omega : ¬i + 1 ≤ i),
      List.getElem?_replicate_of_lt (Nat.lt_succ_self i)]
    rfl
  unfold validateNode
  simp only [relay, hwidths]
  rfl

theorem validateNodesFrom_relays {m i count : Nat} (h : i + 1 + m ≤ count) :
    validateNodesFrom count [] (List.replicate (i + 1) .one) ((List.range' i m).map relay) =
      .ok (List.replicate (i + 1 + m) .one) := by
  induction m generalizing i with
  | zero => rfl
  | succ m ih =>
      rw [List.range'_succ, List.map_cons, validateNodesFrom, List.length_replicate,
        validateNode_relay (by omega)]
      have hpush : List.replicate (i + 1) Width.one ++ [(relay i).width] =
          List.replicate (i + 1 + 1) Width.one := by
        exact List.replicate_succ'.symm
      rw [hpush]
      have hnext := @ih (i + 1) (by omega)
      rw [show i + 1 + (m + 1) = i + 1 + 1 + m by omega]
      exact hnext

theorem validateNodes_relayChain (h : n + 1 ≤ u32Max) :
    validateNodes (relayChain n) = .ok (List.replicate (n + 1) .one) := by
  unfold validateNodes
  rw [relayChain_length, if_neg (Nat.not_lt.mpr h)]
  have hrelays := @validateNodesFrom_relays n 0 (n + 1) (by omega)
  rw [Nat.zero_add, Nat.add_comm 1 n] at hrelays
  exact hrelays

theorem relayChain_maxWidth : (relayChain n).maxWidth = .one := by
  have hwidths : (relayChain n).inputs.map Width.bits ++
      (relayChain n).nodes.map (·.width.bits) = List.replicate (n + 1) 1 := by
    simp [relayChain, List.replicate_succ, relay, Function.comp_def, Width.one]
  unfold AdmissionProgram.maxWidth
  simp only [hwidths, List.max?_replicate_of_pos (Nat.succ_pos n)]
  rfl

/-- Two levels for each lookup. -/
theorem relayChain_path {i : Nat} (hi : i ≤ n) : OperandPath (relayChain n) i (2 * i) := by
  induction i with
  | zero => exact @OperandPath.start (relayChain n) 0 ⟨.constant [1], [], .one⟩ rfl
  | succ i ih =>
      have hpath := OperandPath.step (relayChain_relay hi) (List.mem_singleton.mpr rfl)
        (ih (Nat.le_of_succ_le hi))
      have hcost : (relayChain n).nodeCost (relay i) = 2 := by
        change ceilLog2 (min 2 u32Max) + 1 = 2
        decide +kernel
      rw [hcost] at hpath
      rwa [Nat.mul_succ, Nat.add_comm (2 * i) 2]

theorem relayChain_accepted (h : n + 1 ≤ u32Max) :
    ∃ certificate, validate silentCodec (relayChain n) openLimits = .ok certificate ∧
      ∀ i ≤ n, ∃ entry, certificate.nodes[i]? = some entry := by
  have hnodes := validateNodes_relayChain h
  have houtputs : validateOutputs (relayChain n).outputs (List.replicate (n + 1) .one) = .ok () := by
    rw [List.replicate_succ]
    rfl
  have hrange := inRange_of_validated hnodes houtputs
  have hdepth : (relayChain n).bitDepth ≤ u32Max := by
    unfold AdmissionProgram.bitDepth
    by_cases hnil : (relayChain n).bitLevels = []
    · rw [hnil]
      exact Nat.zero_le _
    · obtain ⟨i, hi, hlevel⟩ := List.getElem_of_mem (max_getD_mem hnil)
      obtain ⟨m, -, hmin⟩ := isGreatest_bitLevel hrange (List.getElem?_eq_getElem hi)
      rw [← hlevel, hmin]
      exact Nat.min_le_right _ _
  have hlimits : openLimits.check (relayChain n) = .ok () := by
    have hbound : openLimits.maxBitDepth .one = u32Max := by
      decide +kernel
    have hcount : openLimits.maxNodes .one = u32Max := by
      decide +kernel
    unfold ProgramLimits.check
    simp only [relayChain_maxWidth, relayChain_length, hbound, hcount]
    rw [if_neg (by decide), if_neg (Nat.not_lt.mpr h), if_neg (Nat.not_lt.mpr hdepth)]
  obtain ⟨certificate, hcertificate, hlength⟩ :=
    @certify_total silentCodec (relayChain n) [] hrange rfl
  refine ⟨certificate, ?_, ?_⟩
  · unfold validate
    rw [if_neg (fun hversion => hversion rfl), hnodes]
    simp only [bind, Except.bind, houtputs, hlimits, hcertificate]
    rfl
  · intro i hi
    have hlt : i < certificate.nodes.length := by
      rw [hlength, relayChain_length]
      omega
    exact ⟨_, List.getElem?_eq_getElem hlt⟩

/-- With two levels for each of 2³¹ lookups the last path weighs 2³², and the certified level
stays at the largest `u32`. -/
theorem relayChain_saturates :
    ∃ certificate entry,
      validate silentCodec (relayChain 2147483648) openLimits = .ok certificate ∧
      certificate.nodes[2147483648]? = some entry ∧
      OperandPath (relayChain 2147483648) 2147483648 4294967296 ∧
      entry.bitLevel = 4294967295 ∧
      ¬IsGreatest {n | OperandPath (relayChain 2147483648) 2147483648 n} entry.bitLevel := by
  have hsmall : 2147483648 + 1 ≤ u32Max := by decide
  have hmax : u32Max = 4294967295 := rfl
  generalize hn : 2147483648 = n at hsmall ⊢
  obtain ⟨certificate, hcertificate, hentries⟩ := relayChain_accepted hsmall
  obtain ⟨entry, hentry⟩ := hentries n (Nat.le_refl n)
  have hpath : OperandPath (relayChain n) n 4294967296 := by
    have hpath := @relayChain_path n n (Nat.le_refl n)
    rwa [show 2 * n = 4294967296 by omega] at hpath
  obtain ⟨widths, hnodes, houtputs, -, hcertify⟩ := validate_ok hcertificate
  obtain ⟨m, hgreatest, hlevel⟩ := isGreatest_bitLevel (inRange_of_validated hnodes houtputs)
    (certify_level hcertify hentry)
  have hm : 4294967296 ≤ m := hgreatest.2 hpath
  refine ⟨certificate, entry, hcertificate, hentry, hpath, by omega, ?_⟩
  intro hlongest
  have hle : 4294967296 ≤ entry.bitLevel := hlongest.2 hpath
  omega

end Chain

end Batpak.Bvisor
