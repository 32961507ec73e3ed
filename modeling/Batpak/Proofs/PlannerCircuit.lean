/-
Module: Batpak.Proofs.PlannerCircuit
Purpose: What the planner's circuit decides for any number of requirements, and how the last lane
  may share a slot.
Trusted boundary: none
Main exports: plannerCircuit_error, plannerShadowCheck_ok
-/
import Batpak.Bvisor.Planner
import Batpak.Proofs.ShadowAgreement

namespace Batpak.Bvisor

open Batpak.Util

/-! ### Lanes that have slots -/

theorem maskEvidence_toNat (value : BitVec 16) : (maskEvidence value).toNat = value.toNat := by
  change (value.setWidth 64 &&& 65535#64).toNat = _
  rw [BitVec.toNat_and, BitVec.toNat_setWidth_of_le (by decide)]
  change value.toNat &&& (2 ^ 16 - 1) = _
  rw [Nat.and_two_pow_sub_one_eq_mod]
  exact Nat.mod_eq_of_lt value.isLt

theorem encodeEvidence_eq (value : BitVec 16) :
    encodeEvidence value = laneOf evidenceLaneWidth.bits (maskEvidence value).toNat := by
  have hlane := fromLeBytes_toLeBytes (value.setWidth 64) evidenceLaneWidth
  rw [BitVec.toNat_setWidth_of_le (by decide)] at hlane
  rw [maskEvidence_toNat]
  exact hlane

/-- The evidence that the second evidence node reads. -/
def evidenceRead (inputs : PlannerInputs) : BitVec 16 :=
  if inputs.enforcement.length < u16Max then inputs.evidenceAvailable
  else inputs.evidenceRequired

theorem length_encodePlanner (inputs : PlannerInputs) :
    (encodePlanner inputs).length = inputs.enforcement.length + 2 := by
  simp [encodePlanner]

/-- With a lane for each of at most `u16Max` requirements, the last lane is the only one that
may lack a slot, and then its node reads the lane before it. -/
theorem encodePlanner_last {inputs : PlannerInputs} (hn : inputs.enforcement.length ≤ u16Max) :
    (encodePlanner inputs)[min ((encodePlanner inputs).length - 1) u16Max]? =
      some (encodeEvidence (evidenceRead inputs)) := by
  rw [length_encodePlanner]
  change _[min (inputs.enforcement.length + 1) u16Max]? = _
  unfold encodePlanner evidenceRead
  by_cases hlt : inputs.enforcement.length < u16Max
  · have hslot : min (inputs.enforcement.length + 1) u16Max = inputs.enforcement.length + 1 := by
      omega
    rw [if_pos hlt, hslot, List.getElem?_append_right (by simp), List.length_map,
      Nat.add_sub_cancel_left]
    rfl
  · have hslot : min (inputs.enforcement.length + 1) u16Max = inputs.enforcement.length := by
      omega
    rw [if_neg hlt, hslot, List.getElem?_append_right (by simp), List.length_map, Nat.sub_self]
    rfl

/-- The two membranes of the circuit carry the trace of the reference over the evidence that
is read. -/
theorem emits_plannerCircuit {inputs : PlannerInputs} (hn : inputs.enforcement.length ≤ u16Max) :
    Emits (encodePlanner inputs) (4 * inputs.enforcement.length + 12) (encodePlanner inputs) [] []
      (plannerCircuitBuild inputs.enforcement.length) fun v' outputs => ∃ d, Reads v' outputs d ∧
        d = ⟨(plannerTrace { inputs with evidenceAvailable := evidenceRead inputs }).all id,
          firstFailing 0 (plannerTrace { inputs with evidenceAvailable := evidenceRead inputs }),
          plannerTrace { inputs with evidenceAvailable := evidenceRead inputs }⟩ := by
  generalize htrace : plannerTrace { inputs with evidenceAvailable := evidenceRead inputs } = trace
  generalize hN : inputs.enforcement.length = N
  have hlast := encodePlanner_last hn
  have hlength := length_encodePlanner inputs
  generalize hx : encodePlanner inputs = x at hlast hlength ⊢
  rw [encodeEvidence_eq] at hlast
  have hlanes : x = inputs.enforcement.map (fun e =>
      laneOf enforcementWidth.bits (maskCode e).toNat) ++
        [laneOf evidenceLaneWidth.bits (maskEvidence inputs.evidenceRequired).toNat,
          encodeEvidence inputs.evidenceAvailable] := by
    rw [← hx]
    unfold encodePlanner
    rw [encodeEvidence_eq inputs.evidenceRequired, funext encodeCode_eq]
  have hfits : x.length ≤ u16Max + 2 := by omega
  apply Emits.cost (c := N + (1 + (1 + (3 * N + 1 + (1 + (8 + 0)))))) (by omega)
  subst hN
  unfold plannerCircuitBuild
  nth_rewrite 2 [hlanes]
  apply (emits_lanesWithin (fun e => (maskCode e).toNat) inputs.enforcement (by
    simp only [List.length_cons, List.length_nil]
    omega)).bind
  intro v₁ enforcements h₁ henforcements
  apply (emits_inputWithin (by simpa using hfits) (length_laneOf _ _)).bind
  intro v₂ required h₂ hrequired
  have hwidth : (encodeEvidence inputs.evidenceAvailable).length = evidenceLaneWidth.bits := by
    rw [encodeEvidence_eq, length_laneOf]
  apply (emits_inputSlot hwidth hlast (length_laneOf _ _)).bind
  intro v₃ available h₃ havailable
  apply (emits_supportCheck (fun e _ => maskCode_lt e) (henforcements.mono (h₂.trans h₃))).bind
  intro v₄ support h₄ hsupport
  apply (emits_bitsetSubset (Word.mono hrequired (h₃.trans h₄)) (Word.mono havailable h₄)).bind
  intro v₅ evidence h₅ hevidence
  have hchecks : Checks v₅ [support, evidence] trace := by
    rw [← htrace]
    apply List.Forall₂.cons _ (.cons _ .nil)
    · apply Bit.holds
      apply (hsupport.mono h₅).congr
      simp only [List.all_eq_true, decide_eq_true_iff]
    · apply Bit.holds
      apply hevidence.congr
      have hlt : (maskEvidence inputs.evidenceRequired).toNat < 2 ^ evidenceLaneWidth.bits := by
        rw [maskEvidence_toNat]
        exact inputs.evidenceRequired.isLt
      rw [decide_eq_true_iff, subset_lane_iff hlt]
  have htwo : trace.length = 2 := by
    rw [← htrace]
    rfl
  apply ((emits_composeMembranes (by omega) hchecks).cost (by omega)).bind
  intro v₆ out h₆ hout
  apply Emits.pure
  have hle := firstFailing_le 0 trace
  have hlt : firstFailing 0 trace < 2 ^ refusalWidth.bits := by
    change _ < 256
    omega
  exact ⟨_, ⟨hout.1, hout.2, hlt, hchecks.mono h₆⟩, rfl⟩

/-- The decision of the circuit, as an outcome. -/
theorem plannerCircuit_ok {inputs : PlannerInputs} (hn : inputs.enforcement.length ≤ u16Max) :
    plannerCircuit inputs =
      .ok (plannerReference { inputs with evidenceAvailable := evidenceRead inputs }) := by
  have hcost : 4 * inputs.enforcement.length + 12 ≤ u32Max := by
    have : u16Max = 65535 := rfl
    change _ ≤ 4294967295
    omega
  obtain ⟨d, hrun, rfl⟩ := @runCircuit_ok "circuit" _ _ _ _ hcost (emits_plannerCircuit hn)
  unfold plannerCircuit compilePlannerCircuit plannerReference outcomeFromTrace
  simp only [hrun, bind, Except.bind]
  generalize plannerTrace { inputs with evidenceAvailable := evidenceRead inputs } = trace
  rcases findIdx_cases trace with ⟨hfind, hall⟩ | ⟨i, hfind, hall, hcode⟩
  · rw [hfind, if_pos hall]
    rfl
  · rw [hfind, if_neg hall, hcode]
    simp [budgetSelectors, scheduleSelector, pure, Except.pure]

/-! ### Lanes without slots -/

/-- Building only appends nodes. -/
def Grows {α : Type} (m : Build α) : Prop :=
  ∀ b, b.nodes <+: (m b).2.nodes

section Growth

variable {α β : Type}

theorem grows_pure (a : α) : Grows (pure a) :=
  fun b => List.prefix_refl b.nodes

theorem grows_push (op : NodeOp) (operands : List NodeId) (width : Width) :
    Grows (push op operands width) :=
  fun b => List.prefix_append b.nodes _

theorem Grows.bind {m : Build α} {f : α → Build β} (hm : Grows m) (hf : ∀ a, Grows (f a)) :
    Grows (m >>= f) :=
  fun b => (hm b).trans (hf (m b).1 (m b).2)

theorem grows_input (width : Width) : Grows (input width) :=
  fun b => grows_push _ _ _ { b with inputs := b.inputs ++ [width] }

theorem grows_collect {f : α → Build β} (hf : ∀ a, Grows (f a)) (xs : List α) :
    Grows (collect f xs) := by
  induction xs with
  | nil => exact grows_pure []
  | cons x xs ih => exact (hf x).bind fun y => ih.bind fun ys => grows_pure (y :: ys)

theorem grows_reduceFuel {unit : BitVec 8} {combine : NodeId → NodeId → Build NodeId}
    (hcombine : ∀ l r, Grows (combine l r)) (fuel : Nat) (items : List NodeId) :
    Grows (reduceFuel unit combine fuel items) := by
  induction fuel generalizing items with
  | zero =>
      rcases items with _ | ⟨a, _ | ⟨b, rest⟩⟩
      · exact grows_push _ _ _
      · exact grows_pure a
      · exact grows_push _ _ _
  | succ fuel ih =>
      rcases items with _ | ⟨a, _ | ⟨b, rest⟩⟩
      · exact grows_push _ _ _
      · exact grows_pure a
      · exact (ih _).bind fun l => (ih _).bind fun r => hcombine l r

theorem grows_andReduce (items : List NodeId) : Grows (andReduce items) :=
  grows_reduceFuel (fun _ _ => grows_push _ _ _) _ items

theorem grows_supportCheck (enforcements : List NodeId) (width : Width) :
    Grows (supportCheck enforcements width) :=
  (grows_collect (fun _ => (grows_push _ _ _).bind fun _ => grows_push _ _ _) enforcements).bind
    grows_andReduce

theorem grows_priorityFrom (code : NodeId) (i : Nat) (membranes : List NodeId) :
    Grows (priorityFrom code i membranes) := by
  induction membranes generalizing i with
  | nil => exact grows_pure code
  | cons membrane rest ih =>
      exact (ih (i + 1)).bind fun _ => (grows_push _ _ _).bind fun _ => grows_push _ _ _

theorem grows_composeMembranes (membranes : List NodeId) : Grows (composeMembranes membranes) := by
  apply (grows_andReduce membranes).bind
  intro admitBit
  apply Grows.bind _ fun refusal => grows_pure (admitBit, refusal)
  exact (grows_push _ _ _).bind fun code => grows_priorityFrom code 0 membranes

end Growth

/-- A program whose nodes all evaluate reads existing lanes of the declared widths. -/
theorem evalNodes_reads {x v v' : List Lane} {nodes : List Node}
    (h : evalNodes x v nodes = .ok v') {slot : Nat} {width : Width}
    (hmem : ⟨.input slot, [], width⟩ ∈ nodes) :
    ∃ lane, x[slot]? = some lane ∧ lane.length = width.bits := by
  induction nodes generalizing v with
  | nil => cases hmem
  | cons node rest ih =>
      obtain ⟨operands, -, h⟩ := bindOk_iff.mp h
      obtain ⟨lane, hlane, h⟩ := bindOk_iff.mp h
      rcases List.mem_cons.mp hmem with rfl | hrest
      · change opInput _ slot width.bits x = .ok lane at hlane
        unfold opInput requireWidth at hlane
        cases hslot : x[slot]? with
        | none =>
            rw [hslot] at hlane
            cases hlane
        | some read =>
            rw [hslot] at hlane
            refine ⟨read, rfl, ?_⟩
            by_contra hne
            simp only [if_neg fun heq => hne (Eq.symm heq)] at hlane
            cases hlane
      · exact ih h hrest

theorem length_inputs (n : Nat) (width : Width) (b : CircuitBuilder) :
    (inputs n width b).2.inputs.length = b.inputs.length + n := by
  have hitems : ∀ (items : List Nat) (b : CircuitBuilder),
      (collect (fun _ => input width) items b).2.inputs.length =
        b.inputs.length + items.length := by
    intro items
    induction items with
    | nil =>
        intro b
        rfl
    | cons i items ih =>
        intro b
        change (collect (fun _ => input width) items (input width b).2).2.inputs.length = _
        rw [ih]
        simp only [input, push, List.length_append, List.length_cons, List.length_nil]
        omega
  rw [inputs, hitems, List.length_range]

theorem mem_input (width : Width) (b : CircuitBuilder) :
    ⟨.input (min b.inputs.length u16Max), [], width⟩ ∈ (input width b).2.nodes :=
  List.mem_append_right b.nodes (List.mem_singleton_self _)

/-- The node of the required evidence reads the slot of the lane, or the last slot. -/
theorem mem_plannerCircuit (n : Nat) :
    ⟨.input (min n u16Max), [], evidenceLaneWidth⟩ ∈ (plannerCircuitBuild n .new).2.nodes := by
  have hcount : (inputs n enforcementWidth .new).2.inputs.length = n := by
    rw [length_inputs]
    exact Nat.zero_add n
  have hrest : ∀ (enforcements : List NodeId) (required : NodeId), Grows (do
      let available ← input evidenceLaneWidth
      let support ← supportCheck enforcements enforcementWidth
      let evidence ← bitsetSubset required available
      let composed ← composeMembranes [support, evidence]
      return (⟨composed.1, composed.2, [support, evidence]⟩ : Outputs)) := by
    intro enforcements required
    apply (grows_input _).bind
    intro available
    apply (grows_supportCheck _ _).bind
    intro support
    apply (grows_push _ _ _).bind
    intro evidence
    exact (grows_composeMembranes _).bind fun out => grows_pure _
  have hmem := mem_input evidenceLaneWidth (inputs n enforcementWidth .new).2
  rw [hcount] at hmem
  exact (hrest _ _ _).subset hmem

theorem compile_nodes {build : Build Outputs} {program : AdmissionProgram}
    (h : compile build = .ok program) : program.nodes = (build .new).2.nodes := by
  change AdmissionProgram.new _ _ _ = _ at h
  unfold AdmissionProgram.new at h
  dsimp only at h
  split at h
  · cases h
  · split at h
    · cases h
    · split at h
      · cases h
      · cases h
        rfl

theorem runCircuit_evaluates {stage : String} {compiled : Except ProgramError AdmissionProgram}
    {lanes : List Lane} {decision : Decision} (h : runCircuit stage compiled lanes = .ok decision) :
    ∃ program, compiled = .ok program ∧ evaluate program lanes = .ok decision := by
  unfold runCircuit at h
  cases compiled with
  | error e => cases h
  | ok program =>
      cases heval : evaluate program lanes with
      | error e =>
          simp only [heval] at h
          cases h
      | ok d =>
          simp only [heval] at h
          cases h
          exact ⟨program, rfl, heval⟩

theorem evaluate_evalNodes {program : AdmissionProgram} {lanes : List Lane} {decision : Decision}
    (h : evaluate program lanes = .ok decision) :
    ∃ values, evalNodes lanes [] program.nodes = .ok values := by
  unfold evaluate at h
  split at h
  · cases h
  · obtain ⟨⟨⟩, -, h⟩ := bindOk_iff.mp h
    obtain ⟨values, hvalues, -⟩ := bindOk_iff.mp h
    exact ⟨values, hvalues⟩

/-- With more requirements than slots, the evidence nodes read lanes of enforcement codes and
the circuit does not evaluate. -/
theorem plannerCircuit_error {inputs : PlannerInputs} (hn : u16Max < inputs.enforcement.length)
    (outcome : AdmissionOutcome) : plannerCircuit inputs ≠ .ok outcome := by
  intro h
  obtain ⟨decision, hrun, -⟩ := bindOk_iff.mp h
  obtain ⟨program, hprogram, heval⟩ := runCircuit_evaluates hrun
  obtain ⟨values, hvalues⟩ := evaluate_evalNodes heval
  rw [compile_nodes hprogram] at hvalues
  obtain ⟨lane, hlane, hwidth⟩ := evalNodes_reads hvalues (mem_plannerCircuit _)
  rw [Nat.min_eq_right (Nat.le_of_lt hn)] at hlane
  unfold encodePlanner at hlane
  rw [List.getElem?_append_left (by simpa using hn), List.getElem?_map] at hlane
  obtain ⟨code, -, rfl⟩ := Option.map_eq_some_iff.mp hlane
  rw [encodeCode_eq, length_laneOf] at hwidth
  cases hwidth

/-- A check that does not diverge answers as the reference, and the requirements fit. -/
theorem plannerShadowCheck_ok {inputs : PlannerInputs} {outcome : AdmissionOutcome} :
    plannerShadowCheck inputs = .ok outcome ↔
      outcome = plannerReference inputs ∧ inputs.enforcement.length ≤ u16Max ∧
        plannerReference { inputs with evidenceAvailable := evidenceRead inputs } =
          plannerReference inputs := by
  unfold plannerShadowCheck decideShadow
  by_cases hn : inputs.enforcement.length ≤ u16Max
  · rw [plannerCircuit_ok hn]
    dsimp only
    split
    next heq =>
      constructor
      · intro h
        cases h
        exact ⟨rfl, hn, heq⟩
      · intro h
        rw [h.1]
    next hne =>
      constructor
      · intro h
        cases h
      · intro h
        exact absurd h.2.2 hne
  · constructor
    · intro h
      cases hcircuit : plannerCircuit inputs with
      | ok circuit => exact absurd hcircuit (plannerCircuit_error (Nat.not_le.mp hn) circuit)
      | error reason =>
          rw [hcircuit] at h
          cases h
    · intro h
      exact absurd h.2.1 hn

end Batpak.Bvisor
