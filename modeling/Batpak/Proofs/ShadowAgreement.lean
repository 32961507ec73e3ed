/-
Module: Batpak.Proofs.ShadowAgreement
Purpose: The compiled admission circuit decides as the imperative reference does, so the shadow
  check never diverges.
Trusted boundary: none
Main exports: circuitBudgetDetail_ok, emits_admissionCircuit
-/
import Batpak.Proofs.ScheduleMembrane

namespace Batpak.Bvisor

open Batpak.Util

/-! ### The detail circuits -/

theorem length_encodeSchedule (inputs : ScheduleInputs) (shape : ScheduleShape) :
    (encodeSchedule inputs shape).length =
      6 * inputs.declarations.length + 3 * inputs.schedule.length + 1 := by
  simp only [encodeSchedule, List.length_append, List.length_map, List.length_singleton]
  omega

theorem length_encodeBudget (budget : List BudgetInputs) :
    (encodeBudget budget).length = 7 * budget.length := by
  simp only [encodeBudget, List.length_append, List.length_map]
  omega

/-- A schedule whose lanes fit the slot space does not exhaust the node ids. -/
theorem scheduleCost_le {slots : Nat} (h : 3 * slots ≤ u16Max + 1) :
    scheduleCost slots ≤ 2000000000 := by
  have hslots : slots ≤ 21845 := by
    have : u16Max = 65535 := rfl
    omega
  have hsquare : slots * slots ≤ 21845 * 21845 := Nat.mul_le_mul hslots hslots
  unfold scheduleCost
  omega

theorem runCircuit_ok {stage : String} {c : Nat} {build : Build Outputs} {x : List Lane}
    {Q : Decision → Prop} (hc : c ≤ u32Max)
    (h : Emits x c x [] [] build fun v outputs => ∃ d, Reads v outputs d ∧ Q d) :
    ∃ d, runCircuit stage (compile build) x = .ok d ∧ Q d := by
  obtain ⟨program, d, hprogram, hevaluate, hQ⟩ := compile_evaluates hc h
  refine ⟨d, ?_, hQ⟩
  unfold runCircuit
  rw [hprogram]
  simp only [hevaluate]

theorem emits_scheduleMembrane {x v r : List Lane} {inputs : ScheduleInputs}
    (hx : x.length ≤ u16Max + 1) (hn : inputs.declarations.length ≤ maxPrimitives) :
    Emits x (scheduleCost inputs.schedule.length + 29)
      (encodeSchedule inputs (shapeOf inputs) ++ r) r v (scheduleMembrane (shapeOf inputs))
      fun v' outputs => ∃ d, Reads v' outputs d ∧ d.refusalCode = scheduleDetail inputs := by
  apply Emits.cost (c := scheduleCost inputs.schedule.length + (29 + 0)) (Nat.le_refl _)
  apply (emits_buildChecks hx hn).bind
  intro v₁ checks _ hchecks
  obtain ⟨ps, hps, hlength, hdetail⟩ := hchecks
  apply ((emits_composeMembranes (by omega) hps).cost (by omega)).bind
  intro v₂ out h₂ hout
  apply Emits.pure
  have hle := firstFailing_le 0 ps
  have hlt : firstFailing 0 ps < 2 ^ refusalWidth.bits := by
    change _ < 256
    omega
  exact ⟨⟨ps.all id, firstFailing 0 ps, ps⟩, ⟨hout.1, hout.2, hlt, hps.mono h₂⟩, hdetail⟩

theorem circuitScheduleDetail_ok {inputs : AdmissionInputs}
    (hn : inputs.schedule.declarations.length ≤ maxPrimitives)
    (hx : (encodeSchedule inputs.schedule (shapeOf inputs.schedule)).length ≤ u16Max + 1) :
    circuitScheduleDetail inputs = .ok (referenceScheduleDetail inputs) := by
  have hcost : scheduleCost inputs.schedule.schedule.length + 29 ≤ u32Max := by
    rw [length_encodeSchedule] at hx
    have := @scheduleCost_le inputs.schedule.schedule.length (by omega)
    change _ ≤ 4294967295
    omega
  have hemits := @emits_scheduleMembrane _ [] [] _ hx hn
  rw [List.append_nil] at hemits
  obtain ⟨d, hrun, hdetail⟩ := @runCircuit_ok "schedule detail" _ _ _ _ hcost hemits
  unfold circuitScheduleDetail compileScheduleMembrane
  dsimp only
  rw [hrun]
  exact congrArg Except.ok hdetail

theorem circuitBudgetDetail_ok {inputs : AdmissionInputs} (hdims : inputs.budget.length ≤ 7)
    (hx : (encodeBudget inputs.budget).length ≤ u16Max + 1) :
    circuitBudgetDetail inputs = .ok (referenceBudgetDetail inputs) := by
  have hemits := @emits_budgetDetail _ [] [] _ hx hdims
  rw [List.append_nil] at hemits
  obtain ⟨d, hrun, hdetail⟩ := @runCircuit_ok "budget detail" _ _ _ _ (by decide) hemits
  unfold circuitBudgetDetail compileBudgetDetail
  rw [hrun]
  exact congrArg Except.ok hdetail

/-! ### The admission circuit -/

section Admission

variable {x v r : List Lane} {inputs : AdmissionInputs}

theorem emits_scheduleMembraneBit {schedule : ScheduleInputs} (hx : x.length ≤ u16Max + 1)
    (hn : schedule.declarations.length ≤ maxPrimitives) :
    Emits x (scheduleCost schedule.schedule.length + 10)
      (encodeSchedule schedule (shapeOf schedule) ++ r) r v
      (scheduleMembraneBit (shapeOf schedule)) fun v' id =>
        Bit v' id (scheduleDetail schedule = 0) := by
  apply (emits_buildChecks hx hn).bind
  intro v₁ checks _ hchecks
  obtain ⟨ps, hps, hlength, hdetail⟩ := hchecks
  have hbits : List.Forall₂ (fun p id => Bit v₁ id (p = true)) ps checks :=
    List.Forall₂.flip (hps.imp fun id p hid => ⟨p, hid, Iff.rfl⟩)
  apply (emits_andReduce hbits).weaken (by omega)
  intro v₂ id _ hid
  apply hid.congr
  rw [← hdetail, firstFailing_eq_zero]

/-- The six membranes of the circuit carry the trace of the reference. -/
theorem emits_admissionCircuit (hx : x.length ≤ u16Max + 1)
    (hn : inputs.schedule.declarations.length ≤ maxPrimitives) :
    Emits x (13 * inputs.requirements.length + 17 * inputs.budget.length +
        scheduleCost inputs.schedule.schedule.length + 38)
      (encodeAdmission inputs ++ r) r v (admissionCircuit (admissionShapeOf inputs))
      fun v' outputs => ∃ d, Reads v' outputs d ∧ d = ⟨(referenceTrace inputs).all id,
        firstFailing 0 (referenceTrace inputs), referenceTrace inputs⟩ := by
  generalize hR : inputs.requirements.length = R
  generalize hD : inputs.budget.length = D
  generalize hK : scheduleCost inputs.schedule.schedule.length = K
  apply Emits.cost (c := 1 + (1 + (1 + (R + (3 * R + 1 + (R + (R + (2 * R + 1 + (7 * D +
    (10 * D + 1 + (R + (R + (3 * R + 2 + (K + 10 + (20 + 0))))))))))))))) (by omega)
  subst hR hD hK
  unfold admissionCircuit encodeAdmission admissionShapeOf
  simp only [encodeField_eq, encodeCode_eq, List.append_assoc, List.cons_append, List.nil_append]
  apply (emits_input hx (length_laneOf _ _)).bind
  intro v₁ planned h₁ hplanned
  apply (emits_input hx (length_laneOf _ _)).bind
  intro v₂ live h₂ hlive
  apply (emits_equal (maskField_lt inputs.plannedProfile) (maskField_lt inputs.liveProfile)
    (Holds.mono hplanned h₂) hlive).bind
  intro v₃ drift h₃ hdrift
  apply (emits_lanes (fun q => (maskCode q.enforcement).toNat) inputs.requirements hx).bind
  intro v₄ enforcements h₄ henforcements
  apply (emits_supportCheck (fun a _ => maskCode_lt a.enforcement) henforcements).bind
  intro v₅ support h₅ hsupport
  apply (emits_lanes (fun q => (maskField q.evidenceRequired).toNat) inputs.requirements hx).bind
  intro v₆ required h₆ hrequired
  apply (emits_lanes (fun q => (maskField q.evidenceAvailable).toNat) inputs.requirements hx).bind
  intro v₇ available h₇ havailable
  apply (emits_evidenceCheck (hrequired.mono h₇) havailable).bind
  intro v₈ evidence h₈ hevidence
  apply (emits_budgetInputs hx).bind
  intro v₉ lanes h₉ hlanes
  apply (emits_budgetCheck hlanes).bind
  intro v₁₀ budget h₁₀ hbudget
  apply (emits_lanes (fun q => (maskField q.conflictPresent).toNat) inputs.requirements hx).bind
  intro v₁₁ present h₁₁ hpresent
  apply (emits_lanes (fun q => (maskField q.conflictForbidden).toNat) inputs.requirements hx).bind
  intro v₁₂ forbidden h₁₂ hforbidden
  apply (emits_conflictCheck (fun a _ => maskField_lt a.conflictPresent) (hpresent.mono h₁₂)
    hforbidden).bind
  intro v₁₃ conflict h₁₃ hconflict
  apply (emits_scheduleMembraneBit hx hn).bind
  intro v₁₄ schedule h₁₄ hschedule
  have e₁₃ := h₁₃.trans h₁₄
  have e₁₀ := h₁₁.trans (h₁₂.trans e₁₃)
  have e₈ := h₉.trans (h₁₀.trans e₁₀)
  have e₅ := h₆.trans (h₇.trans (h₈.trans e₈))
  have hchecks : Checks v₁₄ [drift, support, evidence, budget, conflict, schedule]
      (referenceTrace inputs) := by
    refine .cons ?_ <| .cons ?_ <| .cons ?_ <| .cons ?_ <| .cons ?_ <| .cons ?_ .nil
    · apply Bit.holds
      apply (hdrift.mono (h₄.trans (h₅.trans e₅))).congr
      rw [decide_eq_true_iff, BitVec.toNat_inj]
    · apply Bit.holds
      apply (hsupport.mono e₅).congr
      simp only [List.all_eq_true, decide_eq_true_iff]
    · apply Bit.holds
      apply (hevidence.mono e₈).congr
      simp only [List.all_eq_true, decide_eq_true_iff, maskField_subset_iff]
    · apply Bit.holds
      apply (hbudget.mono e₁₀).congr
      simp only [List.all_eq_true, decide_eq_true_iff]
    · apply Bit.holds
      apply (hconflict.mono h₁₄).congr
      simp only [List.all_eq_true, decide_eq_true_iff, ← BitVec.toNat_and, ← BitVec.toNat_inj]
      rfl
    · exact (hschedule.congr decide_eq_true_iff.symm).holds
  have hlength : (referenceTrace inputs).length = 6 := rfl
  apply ((emits_composeMembranes (by omega) hchecks).cost (by omega)).bind
  intro v₁₅ out h₁₅ hout
  apply Emits.pure
  have hle := firstFailing_le 0 (referenceTrace inputs)
  have hlt : firstFailing 0 (referenceTrace inputs) < 2 ^ refusalWidth.bits := by
    change _ < 256
    omega
  exact ⟨_, ⟨hout.1, hout.2, hlt, hchecks.mono h₁₅⟩, rfl⟩

theorem length_encodeAdmission : (encodeAdmission inputs).length =
    5 * inputs.requirements.length + 7 * inputs.budget.length +
      6 * inputs.schedule.declarations.length + 3 * inputs.schedule.schedule.length + 3 := by
  simp only [encodeAdmission, List.length_append, List.length_map, List.length_cons,
    List.length_nil, length_encodeBudget, length_encodeSchedule]
  omega

/-- The number of the first failing check, as the reference finds it. -/
theorem firstFailing_eq_findIdx (i : Nat) (ps : List Bool) :
    firstFailing i ps = ((ps.findIdx? fun pass => !pass).map fun k => i + k + 1).getD 0 := by
  induction ps generalizing i with
  | nil => rfl
  | cons p ps ih =>
      rw [List.findIdx?_cons]
      cases p with
      | true =>
          rw [firstFailing, if_pos rfl, ih]
          cases ps.findIdx? fun pass => !pass with
          | none => rfl
          | some k =>
              simp only [Option.map_some, Option.getD_some, Bool.not_true, Bool.false_eq_true,
                if_false]
              omega
      | false => rfl

/-- The search of the reference and the two outputs of the circuit, over one trace. -/
theorem findIdx_cases (trace : List Bool) :
    ((trace.findIdx? fun pass => !pass) = none ∧ trace.all id = true) ∨
    ∃ i, (trace.findIdx? fun pass => !pass) = some i ∧ ¬trace.all id = true ∧
      firstFailing 0 trace = i + 1 := by
  have hcode := firstFailing_eq_findIdx 0 trace
  cases hfind : trace.findIdx? fun pass => !pass with
  | none =>
      apply Or.inl
      refine ⟨rfl, ?_⟩
      rw [List.findIdx?_eq_none_iff] at hfind
      rw [List.all_eq_true]
      intro p hp
      simpa using hfind p hp
  | some i =>
      apply Or.inr
      rw [hfind, Option.map_some, Option.getD_some, Nat.zero_add] at hcode
      refine ⟨i, rfl, ?_, hcode⟩
      intro hall
      rw [List.all_eq_true] at hall
      have hzero : firstFailing 0 trace = 0 := firstFailing_eq_zero.mpr hall
      rw [hcode] at hzero
      cases hzero

/-- The circuit compiles and evaluates without error, its outcome is the outcome of the
reference, and the shadow check reports no divergence: for any number of requirements and
slots whose lanes fit the slot space, and for arbitrary field values. -/
theorem circuitAdmission_eq_reference (hdims : inputs.budget.length ≤ 7)
    (hn : inputs.schedule.declarations.length ≤ maxPrimitives)
    (hlanes : (encodeAdmission inputs).length ≤ u16Max + 1) :
    circuitAdmission inputs = .ok (referenceAdmission inputs) ∧
      shadowCheck inputs = .ok (referenceAdmission inputs) := by
  have hlength := hlanes
  rw [length_encodeAdmission] at hlength
  have hsixteen : u16Max = 65535 := rfl
  have hcost := @scheduleCost_le inputs.schedule.schedule.length (by omega)
  have hemits := @emits_admissionCircuit (encodeAdmission inputs) [] [] inputs hlanes hn
  rw [List.append_nil] at hemits
  obtain ⟨d, hrun, rfl⟩ := @runCircuit_ok "circuit" _ _ _ _ (by
    change _ ≤ 4294967295
    omega) hemits
  have hbudget := circuitBudgetDetail_ok hdims (by
    rw [length_encodeBudget]
    omega)
  have hschedule := circuitScheduleDetail_ok hn (by
    rw [length_encodeSchedule]
    omega)
  have hcircuit : circuitAdmission inputs = .ok (referenceAdmission inputs) := by
    unfold circuitAdmission compileAdmission referenceAdmission outcomeFromTrace
    simp only [hrun, hbudget, hschedule, bind, Except.bind]
    rcases findIdx_cases (referenceTrace inputs) with ⟨hfind, hall⟩ | ⟨i, hfind, hall, hcode⟩
    · rw [hfind, if_pos hall]
      rfl
    · rw [hfind, if_neg hall, hcode]
      rfl
  refine ⟨hcircuit, ?_⟩
  unfold shadowCheck decideShadow
  rw [hcircuit]
  simp only [if_true]

/-- Profiles, requirements and budgets with bits above their lanes, two budget dimensions of
which the second one lacks capacity, and a slot past the declarations. -/
def wideInputs : AdmissionInputs where
  plannedProfile := 0x107
  liveProfile := 0x007
  requirements := [⟨5, 0x101, 0x001, 0x300, 0x300⟩]
  budget := [⟨0x110, 0x020, 0x005, 1, 1, 0, 0⟩, ⟨0x020, 0x110, 0x005, 1, 1, 0, 0⟩]
  schedule := ⟨[⟨0, 1, 0, 0, 7, 9⟩], [⟨1, 7, 9⟩], 1⟩

theorem wideInputs_agree :
    referenceAdmission wideInputs = .refused 4 4 [true, true, true, false, true, false] 2 2 0 ∧
    circuitAdmission wideInputs = .ok (referenceAdmission wideInputs) ∧
      shadowCheck wideInputs = .ok (referenceAdmission wideInputs) :=
  ⟨by decide +kernel, circuitAdmission_eq_reference (by decide) (by decide) (by
    rw [length_encodeAdmission]
    decide)⟩

end Admission

end Batpak.Bvisor
