/-
Module: Batpak.Proofs.HostilePrograms
Purpose: Which programs make the evaluator, the depth recurrence, the certificate or the limit
  check index past the end of a list, among all that deserialization can produce.
Trusted boundary: none
Main exports: OperandsPresent, hostile_program_iff
-/
import Batpak.Bvisor.ProgramIndexing
import Batpak.Util.Scan

namespace Batpak.Bvisor

open Batpak.Util

variable {inputs : List Lane} {nodes : List Node} {program : AdmissionProgram}

/-! ### One node -/

/-- How many operands an operation reads. -/
def operandsRead (operands : List Lane) : NodeOp → Nat
  | .constant _ => 0
  | .input _ => 0
  | .not => 1
  | .boundedLookup _ => 1
  | .eq => 2
  | .compare _ => 2
  | .bitsetSubset => 2
  | .bitsetIntersection => 2
  | .and => if (operands.headD []).lowBit then 2 else 1
  | .or => if (operands.headD []).lowBit then 1 else 2
  | .select => 3

/-- With what it reads in place a node is evaluated, and else it panics. -/
theorem evalNodeIndexed_eq (i : Nat) (node : Node) (operands inputs : List Lane) :
    evalNodeIndexed i node operands inputs =
      if operandsRead operands node.op ≤ operands.length then
        some (evalNode i node operands inputs)
      else none := by
  obtain ⟨op, ids, width⟩ := node
  rcases operands with _ | ⟨a, _ | ⟨b, _ | ⟨c, rest⟩⟩⟩
  case nil =>
    cases op <;> simp [evalNodeIndexed, evalNode, operandsRead, Lane.lowBit]
  case cons.nil =>
    cases hbit : Lane.lowBit a
    all_goals cases op <;> simp [evalNodeIndexed, evalNode, operandsRead, hbit]
  case cons.cons.nil =>
    cases hbit : Lane.lowBit a
    all_goals cases op <;> simp [evalNodeIndexed, evalNode, operandsRead, hbit]
  case cons.cons.cons =>
    cases hbit : Lane.lowBit a
    all_goals cases op <;> simp [evalNodeIndexed, evalNode, operandsRead, hbit]

/-! ### The forward pass -/

/-- Every node that the pass comes to finds the operands it reads. -/
def PresentFrom (inputs values : List Lane) (nodes : List Node) : Prop :=
  ∀ (k : Nat) (node : Node) (before lanes : List Lane), nodes[k]? = some node →
    evalNodes inputs values (nodes.take k) = .ok before →
    resolveAll before before.length node.operands = .ok lanes →
    operandsRead lanes node.op ≤ lanes.length

theorem evalNodes_cons_ok {values before : List Lane} {node : Node} :
    evalNodes inputs values (node :: nodes) = .ok before ↔
      ∃ lanes lane, resolveAll values values.length node.operands = .ok lanes ∧
        evalNode values.length node lanes inputs = .ok lane ∧
        evalNodes inputs (values ++ [lane]) nodes = .ok before := by
  rw [evalNodes, bindOk_iff]
  constructor
  · rintro ⟨lanes, hlanes, h⟩
    obtain ⟨lane, hlane, h⟩ := bindOk_iff.mp h
    exact ⟨lanes, lane, hlanes, hlane, h⟩
  · rintro ⟨lanes, lane, hlanes, hlane, h⟩
    exact ⟨lanes, hlanes, bindOk_iff.mpr ⟨lane, hlane, h⟩⟩

theorem evalNodesIndexed_iff {values : List Lane} :
    (∃ r, evalNodesIndexed inputs values nodes = some r) ↔ PresentFrom inputs values nodes := by
  induction nodes generalizing values with
  | nil =>
      constructor
      · intro _ k node before lanes hnode
        simp at hnode
      · intro _
        exact ⟨_, rfl⟩
  | cons node rest ih =>
      -- the first node against the empty run, the later ones against the run after it
      have hsplit : PresentFrom inputs values (node :: rest) ↔
          (∀ lanes, resolveAll values values.length node.operands = .ok lanes →
            operandsRead lanes node.op ≤ lanes.length ∧
            ∀ lane, evalNode values.length node lanes inputs = .ok lane →
              PresentFrom inputs (values ++ [lane]) rest) := by
        constructor
        · intro h lanes hlanes
          refine ⟨h 0 node values lanes rfl rfl hlanes, ?_⟩
          intro lane hlane k later before laterLanes hlater hbefore hresolved
          apply h (k + 1) later before laterLanes hlater _ hresolved
          rw [List.take_succ_cons]
          exact evalNodes_cons_ok.mpr ⟨lanes, lane, hlanes, hlane, hbefore⟩
        · intro h k later before laterLanes hlater hbefore hresolved
          cases k with
          | zero =>
              cases hlater
              cases hbefore
              exact (h laterLanes hresolved).1
          | succ k =>
              rw [List.take_succ_cons] at hbefore
              obtain ⟨lanes, lane, hlanes, hlane, hbefore⟩ := evalNodes_cons_ok.mp hbefore
              exact (h lanes hlanes).2 lane hlane k later before laterLanes hlater hbefore hresolved
      rw [hsplit, evalNodesIndexed]
      cases hlanes : resolveAll values values.length node.operands with
      | error e =>
          constructor
          · intro _ lanes hsome
            cases hsome
          · intro _
            exact ⟨_, rfl⟩
      | ok lanes =>
          dsimp only
          rw [evalNodeIndexed_eq]
          by_cases hread : operandsRead lanes node.op ≤ lanes.length
          · rw [if_pos hread]
            cases hlane : evalNode values.length node lanes inputs with
            | error e =>
                constructor
                · rintro _ _ ⟨⟩
                  refine ⟨hread, ?_⟩
                  intro lane hsome
                  rw [hlane] at hsome
                  cases hsome
                · intro _
                  exact ⟨_, rfl⟩
            | ok lane =>
                dsimp only
                rw [ih]
                constructor
                · rintro hpresent _ ⟨⟩
                  refine ⟨hread, ?_⟩
                  intro lane' hsome
                  rw [hlane] at hsome
                  cases hsome
                  exact hpresent
                · intro h
                  exact (h lanes rfl).2 lane hlane
          · rw [if_neg hread]
            constructor
            · rintro ⟨r, hr⟩
              cases hr
            · intro h
              exact absurd (h lanes rfl).1 hread

/-- The lanes fit the declarations, and then every node finds the operands it reads. -/
def OperandsPresent (program : AdmissionProgram) (inputs : List Lane) : Prop :=
  inputs.map List.length = program.inputs.map Width.bits → PresentFrom inputs [] program.nodes

theorem checkInputs_ok_iff {slot : Nat} {decls : List Width} {lanes : List Lane}
    (hlength : lanes.length = decls.length) :
    checkInputs slot decls lanes = .ok () ↔ lanes.map List.length = decls.map Width.bits := by
  induction decls generalizing slot lanes with
  | nil =>
      cases List.length_eq_zero_iff.mp hlength
      simp [checkInputs]
  | cons decl rest ih =>
      cases lanes with
      | nil => cases hlength
      | cons lane lanes =>
          rw [checkInputs, ifError_ok_iff, not_not, List.map_cons, List.map_cons, List.cons.injEq,
            ih (Nat.succ.inj hlength)]

theorem evaluateIndexed_iff :
    (∃ r, evaluateIndexed program inputs = some r) ↔ OperandsPresent program inputs := by
  unfold evaluateIndexed OperandsPresent
  by_cases hlength : inputs.length ≠ program.inputs.length
  · rw [if_pos hlength]
    constructor
    · intro _ hfits
      have hcount := congrArg List.length hfits
      rw [List.length_map, List.length_map] at hcount
      exact absurd hcount hlength
    · intro _
      exact ⟨_, rfl⟩
  · rw [if_neg hlength]
    have hfits := @checkInputs_ok_iff 0 _ _ (not_not.mp hlength)
    cases hcheck : checkInputs 0 program.inputs inputs with
    | error e =>
        constructor
        · intro _ h
          rw [hfits.mpr h] at hcheck
          cases hcheck
        · intro _
          exact ⟨_, rfl⟩
    | ok =>
        dsimp only
        constructor
        · rintro ⟨r, hr⟩ _
          obtain ⟨values, hvalues, -⟩ := Option.map_eq_some_iff.mp hr
          exact evalNodesIndexed_iff.mp ⟨values, hvalues⟩
        · intro h
          obtain ⟨values, hvalues⟩ := evalNodesIndexed_iff.mpr (h (hfits.mp hcheck))
          exact ⟨_, by rw [hvalues]; rfl⟩

/-! ### Depth -/

theorem exists_mapM_some_iff {α β : Type} {f : α → Option β} {xs : List α} :
    (∃ ys, xs.mapM f = some ys) ↔ ∀ x ∈ xs, ∃ y, f x = some y := by
  induction xs with
  | nil => simp
  | cons x rest ih =>
      rw [List.forall_mem_cons, ← ih, List.mapM_cons]
      cases hx : f x with
      | none => simp
      | some y => cases hrest : rest.mapM f <;> simp

/-- Every operand names an earlier node. -/
def OperandsEarlier (program : AdmissionProgram) : Prop :=
  ∀ (k : Nat) (node : Node), program.nodes[k]? = some node → ∀ id ∈ node.operands, id < k

/-- The levels of the nodes that are left, behind those that have one. -/
theorem bitLevelsFromIndexed_iff {levels : List Nat}
    (hleft : levels.length + nodes.length ≤ program.nodes.length) :
    (∃ r, program.bitLevelsFromIndexed levels nodes = some r) ↔
      ∀ (k : Nat) (node : Node), nodes[k]? = some node →
        ∀ id ∈ node.operands, id < levels.length + k := by
  induction nodes generalizing levels with
  | nil => simp [AdmissionProgram.bitLevelsFromIndexed]
  | cons node rest ih =>
      rw [List.length_cons] at hleft
      have hsplit : (∀ (k : Nat) (n : Node), (node :: rest)[k]? = some n →
            ∀ id ∈ n.operands, id < levels.length + k) ↔
          (∀ id ∈ node.operands, id < levels.length) ∧
            ∀ (k : Nat) (n : Node), rest[k]? = some n →
              ∀ id ∈ n.operands, id < levels.length + 1 + k := by
        constructor
        · intro h
          refine ⟨h 0 node rfl, ?_⟩
          intro k n hn id hid
          exact Nat.lt_of_lt_of_eq (h (k + 1) n hn id hid) (by omega)
        · rintro ⟨hfirst, hrest⟩ k n hn id hid
          cases k with
          | zero =>
              cases hn
              exact hfirst id hid
          | succ k =>
              exact Nat.lt_of_lt_of_eq (hrest k n hn id hid) (by omega)
      have hparents : (∃ parents, (node.operands.mapM fun id => levels[id]?) = some parents) ↔
          ∀ id ∈ node.operands, id < levels.length := by
        rw [exists_mapM_some_iff]
        apply forall₂_congr
        intro id _
        constructor
        · rintro ⟨level, hlevel⟩
          exact (List.getElem?_eq_some_iff.mp hlevel).1
        · intro hlt
          exact ⟨_, List.getElem?_eq_getElem hlt⟩
      rw [hsplit, ← hparents, AdmissionProgram.bitLevelsFromIndexed]
      cases hlevels : node.operands.mapM fun id => levels[id]? with
      | none =>
          cases program.governingWidthIndexed node with
          | none => simp
          | some governing => simp
      | some parents =>
          have hgoverned : ∃ governing, program.governingWidthIndexed node = some governing := by
            unfold AdmissionProgram.governingWidthIndexed
            cases hhead : node.operands.head? with
            | none => exact ⟨_, rfl⟩
            | some first =>
                have hlt := hparents.mp ⟨parents, hlevels⟩ first (List.mem_of_head? hhead)
                have hin : first < program.nodes.length := Nat.lt_of_lt_of_le hlt (by omega)
                dsimp only
                rw [List.getElem?_eq_getElem hin]
                exact ⟨_, rfl⟩
          obtain ⟨governing, hgoverned⟩ := hgoverned
          rw [hgoverned]
          have hnext := @ih (levels ++ [min (node.op.bitCost governing + parents.max?.getD 0) u32Max])
            (by
              rw [List.length_append, List.length_singleton]
              omega)
          rw [List.length_append, List.length_singleton] at hnext
          rw [← hnext]
          simp

theorem bitLevelsIndexed_iff :
    (∃ levels, program.bitLevelsIndexed = some levels) ↔ OperandsEarlier program := by
  unfold AdmissionProgram.bitLevelsIndexed OperandsEarlier
  rw [bitLevelsFromIndexed_iff (by simp)]
  simp only [List.length_nil, Nat.zero_add]

/-- The certificate and the limit check panic only where the depth recurrence does. -/
theorem certifyIndexed_of_levels {codec : ProgramCodec}
    (h : ∃ levels, program.bitLevelsIndexed = some levels) :
    ∃ r, program.certifyIndexed codec = some r := by
  obtain ⟨levels, hlevels⟩ := h
  unfold AdmissionProgram.certifyIndexed
  rw [hlevels]
  exact ⟨_, rfl⟩

theorem checkIndexed_of_levels {limits : ProgramLimits}
    (h : ∃ levels, program.bitLevelsIndexed = some levels) :
    ∃ r, limits.checkIndexed program = some r := by
  obtain ⟨levels, hlevels⟩ := h
  unfold ProgramLimits.checkIndexed
  dsimp only
  by_cases hwidth : limits.maxWidth < program.maxWidth.bits
  · rw [if_pos hwidth]
    exact ⟨_, rfl⟩
  · rw [if_neg hwidth]
    by_cases hcount : limits.maxNodes program.maxWidth < program.nodes.length
    · rw [if_pos hcount]
      exact ⟨_, rfl⟩
    · rw [if_neg hcount, hlevels]
      by_cases hdepth : limits.maxBitDepth program.maxWidth < levels.max?.getD 0
      · exact ⟨.error (.depthExceeded _ _), if_pos hdepth⟩
      · exact ⟨.ok (), if_neg hdepth⟩

/-- None of the four functions panics exactly when every operand names an earlier node and, over
lanes that fit the declarations, every node the evaluator comes to has the operands it reads. -/
theorem hostile_program_iff (codec : ProgramCodec) (limits : ProgramLimits)
    (program : AdmissionProgram) (inputs : List Lane) :
    ((∃ r, evaluateIndexed program inputs = some r) ∧
      (∃ levels, program.bitLevelsIndexed = some levels) ∧
      (∃ r, program.certifyIndexed codec = some r) ∧
      ∃ r, limits.checkIndexed program = some r) ↔
    OperandsEarlier program ∧ OperandsPresent program inputs := by
  rw [evaluateIndexed_iff, bitLevelsIndexed_iff]
  constructor
  · rintro ⟨hpresent, hearlier, -, -⟩
    exact ⟨hearlier, hpresent⟩
  · rintro ⟨hearlier, hpresent⟩
    have hlevels := bitLevelsIndexed_iff.mpr hearlier
    exact ⟨hpresent, hearlier, certifyIndexed_of_levels hlevels, checkIndexed_of_levels hlevels⟩

/-- A comparison without operands, and a negation of the node behind it. -/
def bareComparison : AdmissionProgram :=
  ⟨1, [], [⟨.eq, [], .one⟩], ⟨0, 0, [0]⟩⟩

def forwardNegation : AdmissionProgram :=
  ⟨1, [], [⟨.not, [1], .one⟩, ⟨.constant [1], [], .one⟩], ⟨0, 1, [0]⟩⟩

theorem hostile_programs_panic :
    evaluateIndexed bareComparison [] = none ∧ forwardNegation.bitLevelsIndexed = none ∧
      frozenLimits.checkIndexed forwardNegation = none := by
  decide +kernel

end Batpak.Bvisor
