/-
Module: Batpak.Proofs.CircuitMembranes
Purpose: What the lowered membranes compute over encoded lanes, and that a circuit whose building
  meets its rule compiles and evaluates.
Trusted boundary: none
Main exports: compile_evaluates, Lanes
-/
import Batpak.Bvisor.Shadow
import Batpak.Proofs.CircuitRules

namespace Batpak.Bvisor

open Batpak.Util

variable {i w : Nat} {ps : List Bool} {v : List Lane} {ids : List NodeId} {width : Width}
  {d : BudgetInputs} {zeroLane : NodeId}

/-! ### Ordered refusal -/

/-- The number of the first failing check, the first one being number `i + 1`; zero when all
pass. -/
def firstFailing : Nat → List Bool → Nat
  | _, [] => 0
  | i, p :: ps => if p then firstFailing (i + 1) ps else i + 1

theorem firstFailing_eq_zero :
    firstFailing i ps = 0 ↔ ∀ p ∈ ps, p = true := by
  induction ps generalizing i with
  | nil => simp [firstFailing]
  | cons p ps ih =>
      cases p with
      | true => simp [firstFailing, ih]
      | false => simp [firstFailing]

theorem firstFailing_le (i : Nat) (ps : List Bool) : firstFailing i ps ≤ i + ps.length := by
  induction ps generalizing i with
  | nil => exact Nat.zero_le _
  | cons p ps ih =>
      have := ih (i + 1)
      rw [firstFailing, List.length_cons]
      split
      · omega
      · omega

/-- The nodes of a list of checks with their values. -/
def Checks (v : List Lane) (ids : List NodeId) (ps : List Bool) : Prop :=
  List.Forall₂ (fun id p => Holds v id [p]) ids ps

theorem Checks.mono {v' : List Lane} (h : Checks v ids ps) (hext : v <+: v') : Checks v' ids ps :=
  h.imp fun _ _ hid => Holds.mono hid hext

theorem Bit.holds {id : NodeId} {p : Bool} (h : Bit v id (p = true)) :
    Holds v id [p] := by
  obtain ⟨q, hq, hiff⟩ := h
  rw [Bool.eq_iff_iff.mpr hiff] at hq
  exact hq

section Compose

variable {x v r : List Lane}

theorem emits_priorityFrom {code : NodeId} (hcode : Word v refusalWidth.bits code 0)
    (hi : i + ps.length ≤ 255) (h : Checks v ids ps) :
    Emits x (2 * ps.length) r r v (priorityFrom code i ids) fun v' id =>
      Word v' refusalWidth.bits id (firstFailing i ps) := by
  induction h generalizing i with
  | nil => exact Emits.pure hcode
  | @cons id p ids ps hid hrest ih =>
      rw [List.length_cons] at hi ⊢
      have hcost : 2 * ps.length + (1 + 1) = 2 * (ps.length + 1) := by omega
      rw [← hcost]
      apply (ih (by omega)).bind
      intro v₁ later hext hlater
      apply (@emits_byte _ _ _ _ refusalWidth (by decide)).bind
      intro v₂ failCode hext' hfail
      have hbyte : (BitVec.ofNat 8 (min (i + 1) 255)).toNat = i + 1 := by
        rw [BitVec.toNat_ofNat]
        omega
      rw [hbyte] at hfail
      exact emits_select (hid.mono (hext.trans hext')) (hlater.mono hext') hfail

theorem emits_composeMembranes (hlength : ps.length ≤ 255) (h : Checks v ids ps) :
    Emits x (3 * ps.length + 2) r r v (composeMembranes ids) fun v' out =>
      Holds v' out.1 [ps.all id] ∧ Word v' refusalWidth.bits out.2 (firstFailing 0 ps) := by
  have hbits : List.Forall₂ (fun p id => Bit v id (p = true)) ps ids :=
    List.Forall₂.flip (h.imp fun id p hid => ⟨p, hid, Iff.rfl⟩)
  have hcost : ps.length + 1 + (1 + 2 * ps.length + 0) = 3 * ps.length + 2 := by omega
  rw [← hcost]
  apply (emits_andReduce hbits).bind
  intro v₁ admitBit hext hbit
  have hrefusal : Emits x (1 + 2 * ps.length) r r v₁ (priorityEncode ids) fun v' id =>
      Word v' refusalWidth.bits id (firstFailing 0 ps) := by
    apply (@emits_byte _ _ _ _ refusalWidth (by decide)).bind
    intro v₂ code hext' hcode
    exact emits_priorityFrom hcode (by omega) (h.mono (hext.trans hext'))
  apply hrefusal.bind
  intro v₂ refusal hext' hword
  apply Emits.pure
  have hall : (∀ p ∈ ps, p = true) ↔ ps.all id = true := by simp
  exact ⟨((hbit.congr hall).mono hext').holds, hword⟩

end Compose

/-! ### Closing a circuit -/

/-- What the output nodes of a circuit evaluate to. -/
structure Reads (v : List Lane) (outputs : Outputs) (d : Decision) : Prop where
  admitted : Holds v outputs.admitBit [d.admitted]
  refusal : Word v refusalWidth.bits outputs.refusalCode d.refusalCode
  refusal_lt : d.refusalCode < 2 ^ refusalWidth.bits
  membranes : Checks v outputs.membranes d.membranes

theorem laneOf_succ_low (w n : Nat) : laneOf (w + 1) n = n.testBit 0 :: laneOf w (n / 2) := by
  unfold laneOf
  rw [List.range_succ_eq_map, List.map_cons, List.map_map]
  congr 1
  apply List.map_congr_left
  intro k _
  exact Nat.testBit_succ n k

theorem value_laneOf (w n : Nat) :
    (laneOf w n).foldr (fun b value => (if b then 1 else 0) + 2 * value) 0 = n % 2 ^ w := by
  induction w generalizing n with
  | zero => simp [laneOf, Nat.mod_one]
  | succ w ih =>
      have hstep : n % 2 ^ (w + 1) = n % 2 + 2 * (n / 2 % 2 ^ w) := by
        rw [Nat.pow_succ', Nat.mod_mul]
      rw [laneOf_succ_low, List.foldr_cons, ih, hstep, Nat.testBit_zero]
      rcases Nat.mod_two_eq_zero_or_one n with h | h
      · simp [h]
      · simp [h]

theorem toU64_laneOf {n : Nat} (hw : w ≤ 64) (hn : n < 2 ^ w) :
    (laneOf w n).toU64 = some n := by
  have hdrop : (laneOf w n).drop 64 = [] := by
    apply List.drop_eq_nil_of_le
    rw [length_laneOf]
    exact hw
  unfold Lane.toU64
  rw [hdrop, value_laneOf, Nat.mod_eq_of_lt hn]
  rfl

theorem readPredicate_ok {which : String} {id : NodeId} {p : Bool} (h : Holds v id [p]) :
    readPredicate v which id = .ok p := by
  have hresolve : resolve v u32Max id = .ok [p] := by
    unfold resolve
    rw [h]
  unfold readPredicate
  rw [hresolve]
  rfl

theorem readPredicates_ok (h : Checks v ids ps) : readPredicates v ids = .ok ps := by
  induction h with
  | nil => rfl
  | @cons id p ids ps hid _ ih =>
      rw [readPredicates, readPredicate_ok hid, ih]
      rfl

theorem readOutputs_ok {outputs : Outputs} {d : Decision} (h : Reads v outputs d) :
    readOutputs v outputs = .ok d := by
  have hresolve : resolve v u32Max outputs.refusalCode =
      .ok (laneOf refusalWidth.bits d.refusalCode) := by
    unfold resolve
    rw [h.refusal]
  have hcode := toU64_laneOf (by decide) h.refusal_lt
  unfold readOutputs
  rw [readPredicate_ok h.admitted, hresolve]
  simp only [bind, Except.bind, hcode, readPredicates_ok h.membranes]
  rfl

theorem checkInputs_ok {slot : Nat} {decls : List Width} {lanes : List Lane}
    (h : decls.map (·.bits) = lanes.map List.length) : checkInputs slot decls lanes = .ok () := by
  induction decls generalizing slot lanes with
  | nil =>
      unfold checkInputs
      rfl
  | cons decl decls ih =>
      cases lanes with
      | nil => rfl
      | cons lane lanes =>
          rw [List.map_cons, List.map_cons, List.cons.injEq] at h
          rw [checkInputs, if_neg (fun hne => hne h.1.symm)]
          exact ih h.2

theorem checkOutputs_ok {count : Nat} (h : ∀ id ∈ ids, id < count) :
    AdmissionProgram.checkOutputs count ids = .ok () := by
  induction ids with
  | nil => rfl
  | cons id ids ih =>
      rw [AdmissionProgram.checkOutputs, if_neg (Nat.not_le.mpr (h id List.mem_cons_self))]
      exact ih fun id' hid => h id' (List.mem_cons_of_mem _ hid)

theorem Checks.lt (h : Checks v ids ps) :
    ∀ id ∈ ids, id < v.length := by
  induction h with
  | nil =>
      intro id hid
      cases hid
  | cons hid _ ih =>
      intro id' hmem
      rcases List.mem_cons.mp hmem with rfl | hmem
      · exact hid.lt
      · exact ih id' hmem

/-- A builder that declares all of the input vector and whose outputs evaluate to a decision
compiles, and the program evaluates to that decision. -/
theorem compile_evaluates {x : List Lane} {c : Nat} {build : Build Outputs} {Q : Decision → Prop}
    (hc : c ≤ u32Max)
    (h : Emits x c x [] [] build fun v outputs => ∃ d, Reads v outputs d ∧ Q d) :
    ∃ program d, compile build = .ok program ∧ evaluate program x = .ok d ∧ Q d := by
  have hstart : Good x x .new [] := ⟨rfl, fun _ _ => rfl, [], rfl, rfl⟩
  obtain ⟨v, -, hgood, hgrown, d, hreads, hQ⟩ := h .new hstart (by
    change 0 + c ≤ u32Max
    omega)
  obtain ⟨used, hused, hwidths⟩ := hgood.declared
  rw [List.append_nil] at hused
  have hcount : (build .new).2.nodes.length ≤ u32Max := by
    change _ ≤ 0 + c at hgrown
    omega
  have houtputs : AdmissionProgram.checkOutputs (build .new).2.nodes.length
      ((build .new).1.membranes ++ [(build .new).1.admitBit, (build .new).1.refusalCode]) =
        .ok () := by
    apply checkOutputs_ok
    rw [← hgood.length_eq]
    intro id hid
    rcases List.mem_append.mp hid with hmem | hmem
    · exact hreads.membranes.lt id hmem
    · rcases List.mem_pair.mp hmem with rfl | rfl
      · exact hreads.admitted.lt
      · exact Holds.lt hreads.refusal
  refine ⟨⟨admissionProgramSchemaVersion, (build .new).2.inputs, (build .new).2.nodes,
    (build .new).1⟩, d, ?_, ?_, hQ⟩
  · change AdmissionProgram.new _ _ _ = _
    unfold AdmissionProgram.new
    simp only [if_neg (Nat.not_lt.mpr hcount), hgood.canonical _ (Nat.le_refl _), houtputs]
  · have hlength : x.length = (build .new).2.inputs.length := by
      have := congrArg List.length hwidths
      rw [List.length_map, List.length_map] at this
      rw [hused, this]
    unfold evaluate
    simp only [hlength, ne_eq, not_true_eq_false, if_false]
    rw [checkInputs_ok (hused ▸ hwidths)]
    change (do
      let values ← evalNodes x [] (build .new).2.nodes
      readOutputs values (build .new).1) = _
    rw [hgood.eval]
    exact readOutputs_ok hreads

/-! ### Encoded lanes -/

/-- Nodes that evaluate to a number for each element of a list. -/
def Lanes {α : Type} (v : List Lane) (w : Nat) (ids : List NodeId) (f : α → Nat) (xs : List α) :
    Prop :=
  List.Forall₂ (fun id a => Word v w id (f a)) ids xs

section LaneRules

variable {α : Type} {x v v' r : List Lane} {w : Nat} {ids : List NodeId} {f g : α → Nat}
  {xs : List α}

theorem Lanes.mono (h : Lanes v w ids f xs) (hext : v <+: v') : Lanes v' w ids f xs :=
  h.imp fun _ _ hid => Word.mono hid hext

theorem Lanes.getD (h : Lanes v w ids f xs) {a : α} (hi : xs[i]? = some a) :
    Word v w (ids.getD i 0) (f a) := by
  obtain ⟨hlt, rfl⟩ := List.getElem?_eq_some_iff.mp hi
  have hids : i < ids.length := by
    rw [h.length_eq]
    exact hlt
  rw [List.getD_eq_getElem _ _ hids]
  exact h.get hids hlt

theorem Lanes.zip {ids' : List NodeId} (h : Lanes v w ids f xs) (h' : Lanes v w ids' g xs) :
    List.Forall₂ (fun e a => Word v w e.1 (f a) ∧ Word v w e.2 (g a)) (ids.zip ids') xs := by
  induction h generalizing ids' with
  | nil => exact .nil
  | cons hid _ ih =>
      cases h' with
      | cons hid' hrest' => exact .cons ⟨hid, hid'⟩ (ih hrest')

theorem emits_lanesWithin (f : α → Nat) (xs : List α) (hx : x.length ≤ u16Max + 1 + r.length) :
    Emits x xs.length (xs.map (fun a => laneOf width.bits (f a)) ++ r) r v
      (inputs xs.length width) fun v' ids => Lanes v' width.bits ids f xs := by
  have hwidth : ∀ l ∈ xs.map (fun a => laneOf width.bits (f a)), l.length = width.bits := by simp
  have hinputs := @emits_inputsWithin x v r width _ hx hwidth
  rw [List.length_map] at hinputs
  apply hinputs.weaken (Nat.le_refl _)
  intro v' ids _ hids
  rw [List.forall₂_map_right_iff] at hids
  exact hids

theorem emits_lanes (f : α → Nat) (xs : List α) (hx : x.length ≤ u16Max + 1) :
    Emits x xs.length (xs.map (fun a => laneOf width.bits (f a)) ++ r) r v
      (inputs xs.length width) fun v' ids => Lanes v' width.bits ids f xs :=
  emits_lanesWithin f xs (Nat.le_add_right_of_le hx)

theorem forall₂_range (xs : List α) :
    List.Forall₂ (fun i a => xs[i]? = some a) (List.range xs.length) xs := by
  rw [List.forall₂_iff_get]
  refine ⟨List.length_range, ?_⟩
  intro i h₁ h₂
  simp

end LaneRules

/-! ### The membranes over requirements -/

section Membranes

variable {α : Type} {x v r : List Lane} {f g : α → Nat} {xs : List α}

theorem emits_supportCheck (hf : ∀ a ∈ xs, f a < 2 ^ enforcementWidth.bits)
    (h : Lanes v enforcementWidth.bits ids f xs) :
    Emits x (3 * xs.length + 1) r r v (supportCheck ids enforcementWidth) fun v' id =>
      Bit v' id (∀ a ∈ xs, 1 ≤ f a) := by
  apply Emits.cost (c := xs.length * (1 + 1) + (xs.length + 1)) (by omega)
  apply emits_collectAll₂ (fun v id a => Word v enforcementWidth.bits id (f a))
    (fun hext hid => Word.mono hid hext) h
  intro id a ha v₁ _ hid
  apply (@emits_byte _ _ _ _ enforcementWidth (by decide)).bind
  intro v₂ threshold hext hthreshold
  exact emits_compareUle (by decide) (hf a ha) hthreshold (hid.mono hext)

theorem emits_evidenceCheck {required available : List NodeId} (hrequired : Lanes v w required f xs)
    (havailable : Lanes v w available g xs) :
    Emits x (2 * xs.length + 1) r r v (evidenceCheck required available) fun v' id =>
      Bit v' id (∀ a ∈ xs, ∀ k < w, (f a).testBit k = true → (g a).testBit k = true) := by
  apply Emits.cost (c := xs.length * 1 + (xs.length + 1)) (by omega)
  apply emits_collectAll₂ (fun v (e : NodeId × NodeId) a => Word v w e.1 (f a) ∧ Word v w e.2 (g a))
    (fun hext he => ⟨he.1.mono hext, he.2.mono hext⟩) (hrequired.zip havailable)
  intro e a _ v₁ _ he
  exact emits_bitsetSubset he.1 he.2

theorem emits_zero :
    Emits x 1 r r v (constant (List.replicate ((width.bits + 7) / 8) 0) width) fun v' id =>
      Word v' width.bits id 0 := by
  apply (emits_constant List.length_replicate).weaken (Nat.le_refl _)
  intro v' id _ hid
  have hlane : Lane.fromLeBytes (List.replicate ((width.bits + 7) / 8) 0) width =
      laneOf width.bits 0 := by
    apply List.map_congr_left
    intro i _
    rw [List.getD_eq_getElem?_getD, List.getElem?_replicate]
    split
    · simp
    · simp
  rw [hlane] at hid
  exact hid

theorem emits_conflictCheck {present forbidden : List NodeId} (hf : ∀ a ∈ xs, f a < 2 ^ width.bits)
    (hpresent : Lanes v width.bits present f xs) (hforbidden : Lanes v width.bits forbidden g xs) :
    Emits x (3 * xs.length + 2) r r v (conflictCheck present forbidden width) fun v' id =>
      Bit v' id (∀ a ∈ xs, f a &&& g a = 0) := by
  apply Emits.cost (c := 1 + (xs.length * (1 + 1) + (xs.length + 1))) (by omega)
  apply emits_zero.bind
  intro v₁ zeroLane hext hzero
  apply emits_collectAll₂ (fun v (e : NodeId × NodeId) a =>
      Word v width.bits e.1 (f a) ∧ Word v width.bits e.2 (g a) ∧ Word v width.bits zeroLane 0)
    (fun hext he => ⟨he.1.mono hext, he.2.1.mono hext, he.2.2.mono hext⟩)
    ((hpresent.zip hforbidden).imp fun _ _ he => ⟨he.1.mono hext, he.2.mono hext, hzero⟩)
  intro e a ha v₂ _ he
  apply (emits_bitsetIntersection he.1 he.2.1).bind
  intro v₃ intersection hext' hintersection
  have hlt : f a &&& g a < 2 ^ width.bits := Nat.lt_of_le_of_lt Nat.and_le_left (hf a ha)
  exact emits_equal hlt (Nat.two_pow_pos _) hintersection (he.2.2.mono hext')

end Membranes

/-! ### The budget membrane -/

theorem laneOf_mod (w n : Nat) : laneOf w (n % 2 ^ w) = laneOf w n := by
  apply List.map_congr_left
  intro k hk
  rw [Nat.testBit_mod_two_pow, decide_eq_true (List.mem_range.mp hk), Bool.true_and]

theorem maskField_toNat (value : BitVec 64) : (maskField value).toNat = value.toNat % 2 ^ 8 := by
  change (value &&& 255#64).toNat = _
  rw [BitVec.toNat_and]
  exact Nat.and_two_pow_sub_one_eq_mod value.toNat 8

theorem maskCode_toNat (value : BitVec 8) : (maskCode value).toNat = value.toNat % 2 ^ 2 := by
  change (value.setWidth 64 &&& 3#64).toNat = _
  rw [BitVec.toNat_and, BitVec.toNat_setWidth_of_le (by decide)]
  exact Nat.and_two_pow_sub_one_eq_mod value.toNat 2

theorem maskField_lt (value : BitVec 64) : (maskField value).toNat < 2 ^ fieldWidth.bits := by
  rw [maskField_toNat]
  exact Nat.mod_lt _ (by decide)

theorem maskCode_lt (value : BitVec 8) : (maskCode value).toNat < 2 ^ enforcementWidth.bits := by
  rw [maskCode_toNat]
  exact Nat.mod_lt _ (by decide)

theorem encodeField_eq (value : BitVec 64) :
    encodeField value = laneOf fieldWidth.bits (maskField value).toNat := by
  rw [maskField_toNat]
  exact (fromLeBytes_toLeBytes value fieldWidth).trans (laneOf_mod 8 _).symm

theorem encodeCode_eq (value : BitVec 8) :
    encodeCode value = laneOf enforcementWidth.bits (maskCode value).toNat := by
  have hlane := fromLeBytes_toLeBytes (value.setWidth 64) enforcementWidth
  rw [BitVec.toNat_setWidth_of_le (by decide)] at hlane
  rw [maskCode_toNat]
  exact hlane.trans (laneOf_mod 2 _).symm

/-- A bitset of a lane's width is contained in another one. -/
theorem subset_lane_iff {a b : BitVec 64} (ha : a.toNat < 2 ^ w) :
    a &&& ~~~b = 0 ↔ ∀ k < w, a.toNat.testBit k = true → b.toNat.testBit k = true := by
  rw [subset_iff]
  constructor
  · intro h k _
    exact h k
  · intro h k hbit
    by_cases hk : k < w
    · exact h k hk hbit
    · have hlt := Nat.lt_of_lt_of_le ha (Nat.pow_le_pow_right Nat.two_pos (Nat.not_lt.mp hk))
      rw [BitVec.getLsbD, Nat.testBit_lt_two_pow hlt] at hbit
      cases hbit

/-- A set of evidence kinds is contained in another one. -/
theorem maskField_subset_iff (a b : BitVec 64) :
    maskField a &&& ~~~maskField b = 0 ↔ ∀ k < fieldWidth.bits,
      (maskField a).toNat.testBit k = true → (maskField b).toNat.testBit k = true :=
  subset_lane_iff (maskField_lt a)

/-- The four checks of a dimension in reason order. -/
def budgetPasses (d : BudgetInputs) : List Bool :=
  [decide ((maskField d.derivedMin).toNat ≤ (maskField d.limit).toNat),
    decide ((maskField d.limit).toNat ≤ (maskField d.available).toNat),
    decide ((maskCode d.guaranteeRequired).toNat ≤ (maskCode d.guaranteeAvailable).toNat),
    decide (maskField d.evidenceRequired &&& ~~~maskField d.evidenceAvailable = 0)]

theorem budgetDimReason_eq (d : BudgetInputs) :
    budgetDimReason d = firstFailing 0 (budgetPasses d) := by
  unfold budgetDimReason budgetPasses
  simp only [firstFailing, decide_eq_true_eq, ne_eq, ← Nat.not_le, ite_not]

/-- The lanes of the budget membrane hold what the dimensions ask for and offer. -/
structure BudgetHolds (v : List Lane) (lanes : BudgetLanes) (budget : List BudgetInputs) :
    Prop where
  limit : Lanes v fieldWidth.bits lanes.limit (fun d => (maskField d.limit).toNat) budget
  available : Lanes v fieldWidth.bits lanes.available (fun d => (maskField d.available).toNat)
    budget
  derivedMin : Lanes v fieldWidth.bits lanes.derivedMin (fun d => (maskField d.derivedMin).toNat)
    budget
  guaranteeReq : Lanes v enforcementWidth.bits lanes.guaranteeReq
    (fun d => (maskCode d.guaranteeRequired).toNat) budget
  guaranteeAvail : Lanes v enforcementWidth.bits lanes.guaranteeAvail
    (fun d => (maskCode d.guaranteeAvailable).toNat) budget
  evidenceReq : Lanes v fieldWidth.bits lanes.evidenceReq
    (fun d => (maskField d.evidenceRequired).toNat) budget
  evidenceAvail : Lanes v fieldWidth.bits lanes.evidenceAvail
    (fun d => (maskField d.evidenceAvailable).toNat) budget

section Budget

variable {x v v' r : List Lane} {lanes : BudgetLanes} {budget : List BudgetInputs}

theorem BudgetHolds.mono (h : BudgetHolds v lanes budget) (hext : v <+: v') :
    BudgetHolds v' lanes budget :=
  ⟨h.limit.mono hext, h.available.mono hext, h.derivedMin.mono hext, h.guaranteeReq.mono hext,
    h.guaranteeAvail.mono hext, h.evidenceReq.mono hext, h.evidenceAvail.mono hext⟩

theorem emits_budgetInputs (hx : x.length ≤ u16Max + 1) :
    Emits x (7 * budget.length) (encodeBudget budget ++ r) r v
      (budgetInputs budget.length fieldWidth fieldWidth) fun v' lanes =>
        BudgetHolds v' lanes budget := by
  apply Emits.cost (c := budget.length + (budget.length + (budget.length + (budget.length +
    (budget.length + (budget.length + (budget.length + 0))))))) (by omega)
  unfold encodeBudget budgetInputs
  simp only [encodeField_eq, encodeCode_eq, List.append_assoc]
  apply (emits_lanes (fun d => (maskField d.limit).toNat) budget hx).bind
  intro v₁ limit h₁ hlimit
  apply (emits_lanes (fun d => (maskField d.available).toNat) budget hx).bind
  intro v₂ available h₂ havailable
  apply (emits_lanes (fun d => (maskField d.derivedMin).toNat) budget hx).bind
  intro v₃ derivedMin h₃ hderived
  apply (emits_lanes (fun d => (maskCode d.guaranteeRequired).toNat) budget hx).bind
  intro v₄ guaranteeReq h₄ hguaranteeReq
  apply (emits_lanes (fun d => (maskCode d.guaranteeAvailable).toNat) budget hx).bind
  intro v₅ guaranteeAvail h₅ hguaranteeAvail
  apply (emits_lanes (fun d => (maskField d.evidenceRequired).toNat) budget hx).bind
  intro v₆ evidenceReq h₆ hevidenceReq
  apply (emits_lanes (fun d => (maskField d.evidenceAvailable).toNat) budget hx).bind
  intro v₇ evidenceAvail h₇ hevidenceAvail
  apply Emits.pure
  have h₆' := h₆.trans h₇
  have h₅' := h₅.trans h₆'
  have h₄' := h₄.trans h₅'
  have h₃' := h₃.trans h₄'
  exact ⟨hlimit.mono (h₂.trans h₃'), havailable.mono h₃', hderived.mono h₄', hguaranteeReq.mono h₅',
    hguaranteeAvail.mono h₆', hevidenceReq.mono h₇, hevidenceAvail⟩

theorem emits_dimChecks (h : BudgetHolds v lanes budget) (hi : budget[i]? = some d) :
    Emits x 4 r r v (dimChecks lanes i) fun v' checks => Checks v' checks (budgetPasses d) := by
  apply Emits.cost (c := 1 + (1 + (1 + (1 + 0)))) (Nat.le_refl _)
  apply (emits_compareUle (maskField_lt _) (maskField_lt _) (h.derivedMin.getD hi)
    (h.limit.getD hi)).bind
  intro v₁ intrinsic h₁ hintrinsic
  apply (emits_compareUle (maskField_lt _) (maskField_lt _) ((h.mono h₁).limit.getD hi)
    ((h.mono h₁).available.getD hi)).bind
  intro v₂ capacity h₂ hcapacity
  have hv₂ := h.mono (h₁.trans h₂)
  apply (emits_compareUle (maskCode_lt _) (maskCode_lt _) (hv₂.guaranteeReq.getD hi)
    (hv₂.guaranteeAvail.getD hi)).bind
  intro v₃ guarantee h₃ hguarantee
  have hv₃ := hv₂.mono h₃
  apply (emits_bitsetSubset (hv₃.evidenceReq.getD hi) (hv₃.evidenceAvail.getD hi)).bind
  intro v₄ evidence h₄ hevidence
  apply Emits.pure
  refine .cons ?_ (.cons ?_ (.cons ?_ (.cons ?_ .nil)))
  · exact ((hintrinsic.mono (h₂.trans (h₃.trans h₄))).congr decide_eq_true_iff.symm).holds
  · exact ((hcapacity.mono (h₃.trans h₄)).congr decide_eq_true_iff.symm).holds
  · exact ((hguarantee.mono h₄).congr decide_eq_true_iff.symm).holds
  · apply Bit.holds
    apply hevidence.congr
    rw [decide_eq_true_iff, maskField_subset_iff]

theorem emits_dimPass {checks : List NodeId} (h : Checks v checks (budgetPasses d)) :
    Emits x 5 r r v (andReduce checks) fun v' id => Bit v' id (budgetDimReason d = 0) := by
  have hbits : List.Forall₂ (fun p id => Bit v id (p = true)) (budgetPasses d) checks :=
    List.Forall₂.flip (h.imp fun id p hid => ⟨p, hid, Iff.rfl⟩)
  apply (emits_andReduce hbits).weaken (Nat.le_refl _)
  intro v' id _ hid
  apply hid.congr
  rw [budgetDimReason_eq, firstFailing_eq_zero]

theorem emits_budgetCheck (h : BudgetHolds v lanes budget) :
    Emits x (10 * budget.length + 1) r r v (budgetCheck lanes) fun v' id =>
      Bit v' id (∀ d ∈ budget, budgetDimReason d = 0) := by
  apply Emits.cost (c := budget.length * (4 + 5) + (budget.length + 1)) (by omega)
  unfold budgetCheck
  rw [h.limit.length_eq]
  apply emits_collectAll₂ (fun v i d => BudgetHolds v lanes budget ∧ budget[i]? = some d)
    (fun hext hid => ⟨hid.1.mono hext, hid.2⟩)
    ((forall₂_range budget).imp fun _ _ hi => ⟨h, hi⟩)
  intro i d _ v₁ _ hid
  apply (emits_dimChecks hid.1 hid.2).bind
  intro v₂ checks _ hchecks
  exact emits_dimPass hchecks

/-! ### The budget selector -/

/-- What a dimension contributes to the selector. -/
def packedReason (dim reason : Nat) : Nat :=
  if reason = 0 then 0 else dim <<< 3 ||| reason

theorem packDetail_toNat {dim reason : Nat} (hdim : dim ≤ 7) (hreason : reason ≤ 4) :
    (packDetail dim reason).toNat = dim <<< 3 ||| reason := by
  have hall : ∀ d : Fin 8, ∀ k : Fin 5, (packDetail d k).toNat = d.val <<< 3 ||| k.val := by decide
  exact hall ⟨dim, Nat.lt_succ_of_le hdim⟩ ⟨reason, Nat.lt_succ_of_le hreason⟩

theorem emits_reasonFrom {dim offset : Nat} (hdim : dim ≤ 7) (hoffset : offset + ps.length ≤ 4)
    (hzero : Word v refusalWidth.bits zeroLane 0) (h : Checks v ids ps) :
    Emits x (2 * ps.length) r r v (reasonFrom dim zeroLane offset ids) fun v' id =>
      Word v' refusalWidth.bits id (packedReason dim (firstFailing offset ps)) := by
  induction h generalizing offset with
  | nil => exact Emits.pure hzero
  | @cons id p ids ps hid hrest ih =>
      rw [List.length_cons] at hoffset ⊢
      have hcost : 2 * ps.length + (1 + 1) = 2 * (ps.length + 1) := by omega
      rw [← hcost]
      apply (ih (by omega)).bind
      intro v₁ later hext hlater
      apply (@emits_byte _ _ _ _ refusalWidth (by decide)).bind
      intro v₂ packed hext' hpacked
      rw [packDetail_toNat hdim (by omega)] at hpacked
      apply (emits_select (hid.mono (hext.trans hext')) (hlater.mono hext') hpacked).weaken
        (Nat.le_refl _)
      intro v₃ code _ hcode
      cases p with
      | true => exact hcode
      | false => exact hcode

/-- Pass bit and packed reason of the dimension with the given index. -/
def Entry (v : List Lane) (e : BudgetInputs × Nat) (y : NodeId × NodeId) : Prop :=
  Bit v y.1 (budgetDimReason e.1 = 0) ∧
    Word v refusalWidth.bits y.2 (packedReason (e.2 + 1) (budgetDimReason e.1))

theorem Entry.mono {e : BudgetInputs × Nat} {y : NodeId × NodeId} (h : Entry v e y)
    (hext : v <+: v') : Entry v' e y :=
  ⟨h.1.mono hext, h.2.mono hext⟩

theorem emits_dimEntry (hi7 : i < 7) (h : BudgetHolds v lanes budget)
    (hzero : Word v refusalWidth.bits zeroLane 0) (hi : budget[i]? = some d) :
    Emits x 17 r r v (dimEntry lanes zeroLane i) fun v' y => Entry v' (d, i) y := by
  apply Emits.cost (c := 4 + (2 * (budgetPasses d).length + (5 + 0))) (Nat.le_refl _)
  apply (emits_dimChecks h hi).bind
  intro v₁ checks h₁ hchecks
  apply (emits_reasonFrom hi7 (Nat.le_refl 4) (hzero.mono h₁) hchecks).bind
  intro v₂ code h₂ hcode
  apply (emits_dimPass (hchecks.mono h₂)).bind
  intro v₃ dimPass h₃ hpass
  rw [← budgetDimReason_eq] at hcode
  exact Emits.pure ⟨hpass, hcode.mono h₃⟩

theorem emits_detailFrom {entries : List (NodeId × NodeId)} {dims : List BudgetInputs}
    (hzero : Word v refusalWidth.bits zeroLane 0)
    (h : List.Forall₂ (Entry v) (dims.zipIdx i) entries) :
    Emits x dims.length r r v (detailFrom zeroLane entries) fun v' id =>
      Word v' refusalWidth.bits id (budgetDetailFrom i dims) := by
  induction dims generalizing i entries with
  | nil =>
      cases h
      exact Emits.pure hzero
  | cons d dims ih =>
      rw [List.zipIdx_cons] at h
      cases h with
      | cons hentry hrest =>
          obtain ⟨⟨p, hp, hpass⟩, hcode⟩ := hentry
          apply (ih hrest).bind
          intro v₁ detail hext hdetail
          apply (emits_select (hp.mono hext) hdetail (hcode.mono hext)).weaken (Nat.le_refl _)
          intro v₂ id _ hid
          rw [budgetDetailFrom]
          by_cases hreason : budgetDimReason d = 0
          · rw [if_neg (not_not.mpr hreason)]
            rw [hpass.mpr hreason] at hid
            exact hid
          · have hfalse : p = false := Bool.eq_false_iff.mpr fun hp => hreason (hpass.mp hp)
            rw [if_pos hreason]
            rw [hfalse, packedReason, if_neg hreason] at hid
            exact hid

theorem budgetDetailFrom_lt {dims : List BudgetInputs} (h : i + dims.length ≤ 7) :
    budgetDetailFrom i dims < 2 ^ refusalWidth.bits := by
  induction dims generalizing i with
  | nil => exact Nat.two_pow_pos _
  | cons d dims ih =>
      rw [List.length_cons] at h
      rw [budgetDetailFrom]
      split
      · have hle : budgetDimReason d ≤ 4 := by
          rw [budgetDimReason_eq]
          exact firstFailing_le 0 (budgetPasses d)
        rw [← packDetail_toNat (by omega) hle]
        exact (packDetail (i + 1) (budgetDimReason d)).isLt
      · exact ih (by omega)

theorem emits_budgetDetail (hx : x.length ≤ u16Max + 1) (hdims : budget.length ≤ 7) :
    Emits x 200 (encodeBudget budget ++ r) r v
      (budgetDetail budget.length fieldWidth fieldWidth) fun v' outputs => ∃ d,
        Reads v' outputs d ∧ d.refusalCode = budgetDetailFrom 0 budget := by
  apply Emits.cost (c := 7 * budget.length + (1 + (budget.zipIdx.length * 17 +
    (budget.length + (1 + 0))))) (by rw [List.length_zipIdx]; omega)
  apply (emits_budgetInputs hx).bind
  intro v₁ lanes h₁ hlanes
  apply (@emits_byte _ _ _ _ refusalWidth (by decide)).bind
  intro v₂ zeroLane h₂ hzero
  have hrange : List.Forall₂ (fun i (e : BudgetInputs × Nat) => (BudgetHolds v₂ lanes budget ∧
      Word v₂ refusalWidth.bits zeroLane 0) ∧ i = e.2 ∧ budget[i]? = some e.1)
      (List.range budget.length) budget.zipIdx := by
    rw [List.forall₂_iff_get]
    refine ⟨by simp, ?_⟩
    intro i _ _
    exact ⟨⟨hlanes.mono h₂, hzero⟩, by simp, by simp⟩
  apply (emits_collect₂ (fun v i (e : BudgetInputs × Nat) => (BudgetHolds v lanes budget ∧
    Word v refusalWidth.bits zeroLane 0) ∧ i = e.2 ∧ budget[i]? = some e.1)
    (fun e v y => Entry v e y) (fun hext hrel => ⟨⟨hrel.1.1.mono hext, hrel.1.2.mono hext⟩, hrel.2⟩)
    (fun _ _ _ _ hext hentry => hentry.mono hext) hrange _).bind
  · intro v₃ entries h₃ hentries
    apply (emits_detailFrom (hzero.mono h₃) hentries).bind
    intro v₄ detail h₄ hdetail
    have hlt := @budgetDetailFrom_lt 0 budget (by omega)
    apply (emits_equal hlt (Nat.two_pow_pos _) hdetail (hzero.mono (h₃.trans h₄))).bind
    intro v₅ admitBit h₅ hadmitted
    obtain ⟨p, hp, -⟩ := hadmitted
    apply Emits.pure
    exact ⟨⟨p, budgetDetailFrom 0 budget, [p]⟩, ⟨hp, hdetail.mono h₅, hlt, .cons hp .nil⟩, rfl⟩
  · intro i e _ v' _ hrel
    obtain ⟨⟨hlanes, hzero⟩, rfl, hi⟩ := hrel
    have hlt := (List.getElem?_eq_some_iff.mp hi).1
    exact emits_dimEntry (by omega) hlanes hzero hi

end Budget

end Batpak.Bvisor
