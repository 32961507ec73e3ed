/-
Module: Batpak.Proofs.BudgetNames
Purpose: The name of a budget refusal, dimension and reason, as the two-phase admission, the
  imperative selector and the compiled selector give it: exactly when they are the same.
Trusted boundary: none
Main exports: twoPhase_eq_firstReason_iff, budget_names_agree_iff
-/
import Batpak.Bvisor.Budget
import Batpak.Proofs.ShadowAgreement

namespace Batpak.Bvisor

open Batpak.Util

/-! ### A dimension with everything it is judged by -/

structure BudgetCase where
  dimension : BudgetDimension
  request : BudgetRequest
  availability : BudgetAvailability
  minimum : BitVec 64

namespace BudgetCase

def below (c : BudgetCase) : Prop :=
  c.request.limit < c.minimum

instance (c : BudgetCase) : Decidable c.below :=
  inferInstanceAs (Decidable (_ < _))

/-- Why the profile refuses the dimension. The digest only goes into the contract. -/
def refusal (c : BudgetCase) : Option BudgetFailure :=
  match adjudicateDimension c.request c.availability 0 with
  | .ok _ => none
  | .error failure => some failure

/-- The first reason of the dimension, whoever gives it. -/
def reason (c : BudgetCase) : Option BudgetFailure :=
  if c.below then some .belowDerivedMinimum else c.refusal

/-- The profile gives the capacity, the guarantee and the evidence asked for. -/
def covered (c : BudgetCase) : Prop :=
  c.request.limit ≤ c.availability.available ∧
    guaranteeStrength c.request.guarantee ≤ enforcementStrength c.availability.enforcement ∧
    c.request.evidence ⊆ c.availability.evidence

theorem refusal_eq_none_iff (c : BudgetCase) : c.refusal = none ↔ c.covered := by
  unfold refusal adjudicateDimension covered
  simp only [← BitVec.not_lt]
  by_cases hcapacity : c.availability.available < c.request.limit
  · simp [hcapacity]
  · by_cases hguarantee : enforcementStrength c.availability.enforcement <
        guaranteeStrength c.request.guarantee
    · simp [hcapacity, hguarantee]
    · by_cases hevidence : c.request.evidence ⊆ c.availability.evidence
      · simp [hcapacity, hguarantee, hevidence]
      · simp [hcapacity, hguarantee, hevidence]

theorem refusal_ne_below (c : BudgetCase) : c.refusal ≠ some .belowDerivedMinimum := by
  unfold refusal adjudicateDimension
  split_ifs <;> simp

end BudgetCase

abbrev RefusalName := Option (BudgetDimension × BudgetFailure)

/-- Phase one over all dimensions, then phase two. -/
def phaseTwo : List BudgetCase → RefusalName
  | [] => none
  | c :: rest =>
      match c.refusal with
      | some failure => some (c.dimension, failure)
      | none => phaseTwo rest

def phaseOne : List BudgetCase → RefusalName
  | [] => none
  | c :: rest => if c.below then some (c.dimension, .belowDerivedMinimum) else phaseOne rest

def twoPhase (cases : List BudgetCase) : RefusalName :=
  (phaseOne cases).or (phaseTwo cases)

/-- The first dimension with a reason. -/
def firstReason : List BudgetCase → RefusalName
  | [] => none
  | c :: rest =>
      match c.reason with
      | some failure => some (c.dimension, failure)
      | none => firstReason rest

/-- Every dimension before the first one below its minimum is covered by the profile. -/
def MinimumsFirst (cases : List BudgetCase) : Prop :=
  ∀ before c after, cases = before ++ c :: after → c.below → (∀ x ∈ before, ¬x.below) →
    ∀ x ∈ before, x.covered

theorem phaseOne_eq_none {cases : List BudgetCase} :
    phaseOne cases = none ↔ ∀ c ∈ cases, ¬c.below := by
  induction cases with
  | nil => simp [phaseOne]
  | cons c rest ih =>
      unfold phaseOne
      by_cases hbelow : c.below
      · simp [hbelow]
      · simp [hbelow, ih]

theorem phaseOne_below {cases : List BudgetCase} {name : BudgetDimension × BudgetFailure}
    (h : phaseOne cases = some name) : name.2 = .belowDerivedMinimum := by
  induction cases with
  | nil => cases h
  | cons c rest ih =>
      unfold phaseOne at h
      split at h
      · cases h
        rfl
      · exact ih h

theorem minimumsFirst_of_below {c : BudgetCase} {rest : List BudgetCase} (h : c.below) :
    MinimumsFirst (c :: rest) := by
  intro before d after heq _ hbefore x hx
  cases before with
  | nil => cases hx
  | cons y ys =>
      rw [List.cons_append] at heq
      cases heq
      exact absurd h (hbefore c List.mem_cons_self)

theorem minimumsFirst_cons {c : BudgetCase} {rest : List BudgetCase} (h : ¬c.below) :
    MinimumsFirst (c :: rest) ↔
      (c.covered ∨ ∀ d ∈ rest, ¬d.below) ∧ MinimumsFirst rest := by
  constructor
  · intro hfirst
    have hrest : MinimumsFirst rest := by
      intro before d after heq hd hbefore x hx
      refine hfirst (c :: before) d after (by rw [heq, List.cons_append]) hd ?_ x
        (List.mem_cons_of_mem _ hx)
      intro y hy
      rcases List.mem_cons.mp hy with rfl | hy
      · exact h
      · exact hbefore y hy
    refine ⟨?_, hrest⟩
    by_cases hsome : ∀ d ∈ rest, ¬d.below
    · exact .inr hsome
    · left
      -- split the rest at its first dimension below the minimum
      have hfind : (rest.find? fun d => d.below).isSome = true := by
        rw [List.find?_isSome]
        simp only [not_forall, not_not] at hsome
        obtain ⟨d, hd, hbelow⟩ := hsome
        exact ⟨d, hd, decide_eq_true hbelow⟩
      obtain ⟨d, hd⟩ := Option.isSome_iff_exists.mp hfind
      obtain ⟨hbelow, before, after, heq, hbefore⟩ := List.find?_eq_some_iff_append.mp hd
      refine hfirst (c :: before) d after (by rw [heq, List.cons_append])
        (of_decide_eq_true hbelow) ?_ c List.mem_cons_self
      intro y hy
      rcases List.mem_cons.mp hy with rfl | hy
      · exact h
      · simpa using hbefore y hy
  · rintro ⟨hhead, hrest⟩ before d after heq hd hbefore x hx
    cases before with
    | nil => cases hx
    | cons y ys =>
        rw [List.cons_append] at heq
        cases heq
        rcases List.mem_cons.mp hx with rfl | hx
        · refine hhead.resolve_right fun hnone => ?_
          exact hnone d (List.mem_append_right _ List.mem_cons_self) hd
        · exact hrest ys d after rfl hd (fun z hz => hbefore z (List.mem_cons_of_mem _ hz)) x hx

/-- The two orders name the same refusal exactly when the minimums come first. -/
theorem twoPhase_eq_firstReason_iff (cases : List BudgetCase) :
    twoPhase cases = firstReason cases ↔ MinimumsFirst cases := by
  induction cases with
  | nil =>
      refine iff_of_true rfl ?_
      intro before c after heq
      cases before <;> cases heq
  | cons c rest ih =>
      by_cases hbelow : c.below
      · refine iff_of_true ?_ (minimumsFirst_of_below hbelow)
        simp [twoPhase, phaseOne, firstReason, BudgetCase.reason, hbelow]
      · rw [minimumsFirst_cons hbelow]
        have hone : phaseOne (c :: rest) = phaseOne rest := by
          rw [phaseOne, if_neg hbelow]
        have hreason : c.reason = c.refusal := if_neg hbelow
        cases hrefusal : c.refusal with
        | none =>
            have htwo : phaseTwo (c :: rest) = phaseTwo rest := by
              rw [phaseTwo, hrefusal]
            have hfirst : firstReason (c :: rest) = firstReason rest := by
              rw [firstReason, hreason, hrefusal]
            rw [twoPhase, hone, htwo, hfirst]
            have hcovered := c.refusal_eq_none_iff.mp hrefusal
            exact ih.trans (by simp [hcovered])
        | some failure =>
            have htwo : phaseTwo (c :: rest) = some (c.dimension, failure) := by
              rw [phaseTwo, hrefusal]
            have hfirst : firstReason (c :: rest) = some (c.dimension, failure) := by
              rw [firstReason, hreason, hrefusal]
            rw [twoPhase, hone, htwo, hfirst]
            cases hphase : phaseOne rest with
            | none =>
                have hnone := phaseOne_eq_none.mp hphase
                refine iff_of_true rfl ⟨.inr hnone, ?_⟩
                intro before d after heq hd
                exact absurd hd (hnone d (by rw [heq]; simp))
            | some name =>
                refine iff_of_false ?_ ?_
                · intro heq
                  have hname : name = (c.dimension, failure) := Option.some.inj heq
                  have hfailure := phaseOne_below hphase
                  rw [hname] at hfailure
                  exact c.refusal_ne_below (hrefusal.trans (congrArg some hfailure))
                · rintro ⟨hhead, -⟩
                  rcases hhead with hcovered | hnone
                  · rw [c.refusal_eq_none_iff.mpr hcovered] at hrefusal
                    cases hrefusal
                  · rw [phaseOne_eq_none.mpr hnone] at hphase
                    cases hphase

/-! ### The admission of a request -/

/-- The seven dimensions of a request, in canonical order. -/
def budgetCases (requirements : BudgetRequirements) (profile : BudgetProfile)
    (derived : DerivedMinimums) : List BudgetCase :=
  [⟨.wall, requirements.wallMicros, profile.wallMicros, derived.wallMicros⟩,
    ⟨.cpu, requirements.cpuMicros, profile.cpuMicros, derived.cpuMicros⟩,
    ⟨.residentMemory, requirements.residentBytes, profile.residentBytes, derived.residentBytes⟩,
    ⟨.processCount, requirements.processCount, profile.processCount, derived.processCount⟩,
    ⟨.handleCount, requirements.handleCount, profile.handleCount, derived.handleCount⟩,
    ⟨.storage, requirements.storageBytes, profile.storageBytes, derived.storageBytes⟩,
    ⟨.network, requirements.networkBytes, profile.networkBytes, derived.networkBytes⟩]

/-- The name in an answer of the admission. -/
def admitName {α : Type} : Except BudgetRefusal α → RefusalName
  | .ok _ => none
  | .error refusal => some (refusal.dimension, refusal.failure)

theorem admitName_bind {α β : Type} (x : Except BudgetRefusal α) (f : α → Except BudgetRefusal β)
    {rest : RefusalName} (h : ∀ a, admitName (f a) = rest) :
    admitName (x >>= f) = (admitName x).or rest := by
  cases x with
  | error refusal => rfl
  | ok a => exact h a

theorem admitName_intrinsicCheck (cases : List BudgetCase) :
    admitName (intrinsicCheck (cases.map fun c => (c.dimension, c.request.limit, c.minimum))) =
      phaseOne cases := by
  induction cases with
  | nil => rfl
  | cons c rest ih =>
      rw [List.map_cons, intrinsicCheck, phaseOne]
      by_cases hbelow : c.below
      · rw [if_pos hbelow]
        exact congrArg admitName (if_pos hbelow)
      · rw [if_neg hbelow, ← ih]
        exact congrArg admitName (if_neg hbelow)

theorem admitName_adjudicate (digest : Digest32) (c : BudgetCase) (rest : List BudgetCase) :
    (admitName (adjudicate digest c.dimension c.request c.availability)).or (phaseTwo rest) =
      phaseTwo (c :: rest) := by
  rw [phaseTwo]
  generalize phaseTwo rest = later
  unfold adjudicate BudgetCase.refusal adjudicateDimension
  split_ifs <;> rfl

theorem admitName_budgetAdmit (requirements : BudgetRequirements) (profile : BudgetProfile)
    (derived : DerivedMinimums) (digest : Digest32) :
    admitName (budgetAdmit requirements profile derived digest) =
      twoPhase (budgetCases requirements profile derived) := by
  have hintrinsic : admitName (intrinsicCheck (intrinsicChecks requirements derived)) =
      phaseOne (budgetCases requirements profile derived) :=
    admitName_intrinsicCheck (budgetCases requirements profile derived)
  unfold twoPhase
  rw [← hintrinsic]
  unfold budgetAdmit budgetCases
  refine admitName_bind _ _ fun _ => ?_
  simp only [← admitName_adjudicate digest]
  refine admitName_bind _ _ fun _ => ?_
  refine admitName_bind _ _ fun _ => ?_
  refine admitName_bind _ _ fun _ => ?_
  refine admitName_bind _ _ fun _ => ?_
  refine admitName_bind _ _ fun _ => ?_
  refine admitName_bind _ _ fun _ => ?_
  exact admitName_bind _ _ fun _ => rfl

/-! ### The selectors over the lanes -/

/-- The lanes of a dimension: the codes of the guarantees and one bit per claim. -/
def BudgetCase.encode (c : BudgetCase) : BudgetInputs where
  limit := c.request.limit
  available := c.availability.available
  derivedMin := c.minimum
  guaranteeRequired := guaranteeStrength c.request.guarantee
  guaranteeAvailable := enforcementStrength c.availability.enforcement
  evidenceRequired := (evidenceBits c.request.evidence).setWidth 64
  evidenceAvailable := (evidenceBits c.availability.evidence).setWidth 64

/-- Everything the dimension is judged by fits its lane. -/
structure BudgetCase.Fits (c : BudgetCase) : Prop where
  limit : c.request.limit.toNat < 2 ^ fieldBits
  available : c.availability.available.toNat < 2 ^ fieldBits
  minimum : c.minimum.toNat < 2 ^ fieldBits
  required : ∀ claim ∈ c.request.evidence, evidenceBit claim < fieldBits
  provided : ∀ claim ∈ c.availability.evidence, evidenceBit claim < fieldBits

instance (c : BudgetCase) : Decidable c.Fits :=
  decidable_of_iff
    (c.request.limit.toNat < 2 ^ fieldBits ∧ c.availability.available.toNat < 2 ^ fieldBits ∧
      c.minimum.toNat < 2 ^ fieldBits ∧
      (∀ claim ∈ c.request.evidence, evidenceBit claim < fieldBits) ∧
      ∀ claim ∈ c.availability.evidence, evidenceBit claim < fieldBits)
    ⟨fun ⟨a, b, c, d, e⟩ => ⟨a, b, c, d, e⟩, fun ⟨a, b, c, d, e⟩ => ⟨a, b, c, d, e⟩⟩

theorem foldl_evidence_getLsbD (claims : List EvidenceClaim) (bits : BitVec 16) {i : Nat}
    (hi : i < 16) :
    (claims.foldl (fun bits claim => bits ||| 1#16 <<< evidenceBit claim) bits).getLsbD i =
      (bits.getLsbD i || claims.any fun claim => evidenceBit claim == i) := by
  induction claims generalizing bits with
  | nil => simp
  | cons claim rest ih =>
      have hbit : (1#16 <<< evidenceBit claim).getLsbD i = (evidenceBit claim == i) := by
        simp only [BitVec.getLsbD_shiftLeft, BitVec.getLsbD_one, hi]
        by_cases heq : evidenceBit claim = i
        · simp [heq]
        · have hne : (evidenceBit claim == i) = false := beq_eq_false_iff_ne.mpr heq
          rw [hne]
          simp only [decide_true, Bool.true_and, Bool.and_eq_false_iff, Bool.not_eq_false',
            decide_eq_true_eq, decide_eq_false_iff_not]
          omega
      rw [List.foldl_cons, ih, BitVec.getLsbD_or, hbit, List.any_cons, Bool.or_assoc]

theorem mem_allClaims (claim : EvidenceClaim) : claim ∈ EvidenceClaim.all := by
  cases claim <;> decide

theorem evidenceBit_inj {a b : EvidenceClaim} (h : evidenceBit a = evidenceBit b) : a = b := by
  cases a <;> cases b <;> first | rfl | cases h

theorem evidenceBits_getLsbD (set : EvidenceSet) {i : Nat} (hi : i < 16) :
    (evidenceBits set).getLsbD i = true ↔ ∃ claim ∈ set, evidenceBit claim = i := by
  unfold evidenceBits
  rw [foldl_evidence_getLsbD _ _ hi]
  simp only [BitVec.ofNat_eq_ofNat, BitVec.getLsbD_zero, Bool.false_or, List.any_eq_true,
    List.mem_filter, decide_eq_true_eq, beq_iff_eq]
  constructor
  · rintro ⟨claim, ⟨-, hset⟩, hbit⟩
    exact ⟨claim, hset, hbit⟩
  · rintro ⟨claim, hset, hbit⟩
    exact ⟨claim, ⟨mem_allClaims claim, hset⟩, hbit⟩

theorem evidenceBit_lt (claim : EvidenceClaim) : evidenceBit claim < 16 := by
  cases claim <;> decide

/-- The bits of the lane are the claims of the set, if they fit it. -/
theorem maskField_evidence {set : EvidenceSet}
    (h : ∀ claim ∈ set, evidenceBit claim < fieldBits) (i : Nat) :
    (maskField ((evidenceBits set).setWidth 64)).getLsbD i = true ↔
      ∃ claim ∈ set, evidenceBit claim = i := by
  have hmask : (maskField ((evidenceBits set).setWidth 64)).getLsbD i =
      (decide (i < 8) && (evidenceBits set).getLsbD i) := by
    rw [BitVec.getLsbD, maskField_toNat, Nat.testBit_mod_two_pow,
      BitVec.toNat_setWidth_of_le (by decide), BitVec.getLsbD]
  rw [hmask]
  by_cases hi : i < 8
  · rw [decide_eq_true hi, Bool.true_and, evidenceBits_getLsbD set (by omega)]
  · simp only [hi, decide_false, Bool.false_and, Bool.false_eq_true, false_iff]
    rintro ⟨claim, hclaim, rfl⟩
    exact hi (h claim hclaim)

theorem maskField_evidence_subset {c : BudgetCase} (h : c.Fits) :
    maskField c.encode.evidenceRequired &&& ~~~maskField c.encode.evidenceAvailable = 0 ↔
      c.request.evidence ⊆ c.availability.evidence := by
  rw [subset_iff]
  simp only [BudgetCase.encode, maskField_evidence h.required, maskField_evidence h.provided]
  constructor
  · intro hbits claim hclaim
    obtain ⟨other, hother, hbit⟩ := hbits (evidenceBit claim) ⟨claim, hclaim, rfl⟩
    rw [← evidenceBit_inj hbit]
    exact hother
  · rintro hsubset i ⟨claim, hclaim, rfl⟩
    exact ⟨claim, hsubset hclaim, rfl⟩

theorem maskField_of_fits {value : BitVec 64} (h : value.toNat < 2 ^ fieldBits) :
    (maskField value).toNat = value.toNat := by
  rw [maskField_toNat]
  exact Nat.mod_eq_of_lt h

theorem maskCode_enforcement (e : Enforcement) :
    (maskCode (enforcementStrength e)).toNat = (enforcementStrength e).toNat := by
  cases e <;> rfl

theorem maskCode_guarantee (g : MinGuarantee) :
    (maskCode (guaranteeStrength g)).toNat = (guaranteeStrength g).toNat := by
  cases g <;> rfl

/-! ### Names as numbers -/

/-- The reasons in canonical order; zero is no reason. -/
def BudgetFailure.code : BudgetFailure → Nat
  | .belowDerivedMinimum => 1
  | .capacityExceeded => 2
  | .guaranteeInsufficient => 3
  | .evidenceMissing => 4

/-- The dimensions in canonical order; zero is no dimension. -/
def BudgetDimension.code : BudgetDimension → Nat
  | .wall => 1
  | .cpu => 2
  | .residentMemory => 3
  | .processCount => 4
  | .handleCount => 5
  | .storage => 6
  | .network => 7

/-- A name as the two selectors of an outcome. -/
def nameSelectors : RefusalName → Nat × Nat
  | none => (0, 0)
  | some (dimension, failure) => (dimension.code, failure.code)

/-- A name as the packed detail of a selector. -/
def nameDetail : RefusalName → Nat
  | none => 0
  | some (dimension, failure) => (dimension.code <<< 3) ||| failure.code

theorem nameDetail_selectors (name : RefusalName) :
    (nameDetail name >>> 3, nameDetail name &&& 7) = nameSelectors name := by
  rcases name with _ | ⟨dimension, failure⟩
  · rfl
  · cases dimension <;> cases failure <;> rfl

theorem nameSelectors_inj {a b : RefusalName} (h : nameSelectors a = nameSelectors b) : a = b := by
  rcases a with _ | ⟨d, f⟩ <;> rcases b with _ | ⟨d', f'⟩
  · rfl
  · cases d' <;> cases f' <;> cases h
  · cases d <;> cases f <;> cases h
  · obtain ⟨hd, hf⟩ := Prod.mk.inj h
    have hdimension : d = d' := by
      revert hd
      cases d <;> cases d' <;> decide
    have hfailure : f = f' := by
      revert hf
      cases f <;> cases f' <;> decide
    rw [hdimension, hfailure]

theorem nameDetail_inj {a b : RefusalName} (h : nameDetail a = nameDetail b) : a = b := by
  apply nameSelectors_inj
  rw [← nameDetail_selectors, ← nameDetail_selectors, h]

/-- The reason in the lanes is the reason of the dimension. -/
theorem budgetDimReason_encode {c : BudgetCase} (h : c.Fits) :
    budgetDimReason c.encode = (c.reason.map BudgetFailure.code).getD 0 := by
  have hlimit : (maskField c.encode.limit).toNat = c.request.limit.toNat :=
    maskField_of_fits h.limit
  have havailable : (maskField c.encode.available).toNat = c.availability.available.toNat :=
    maskField_of_fits h.available
  have hminimum : (maskField c.encode.derivedMin).toNat = c.minimum.toNat :=
    maskField_of_fits h.minimum
  have hguarantee : (maskCode c.encode.guaranteeAvailable).toNat =
      (enforcementStrength c.availability.enforcement).toNat :=
    maskCode_enforcement _
  have hrequired : (maskCode c.encode.guaranteeRequired).toNat =
      (guaranteeStrength c.request.guarantee).toNat :=
    maskCode_guarantee _
  unfold budgetDimReason BudgetCase.reason
  simp only [hlimit, havailable, hminimum, hguarantee, hrequired, ← BitVec.lt_def, ne_eq,
    maskField_evidence_subset h]
  by_cases hbelow : c.request.limit < c.minimum
  · rw [if_pos hbelow, if_pos (show c.below from hbelow)]
    rfl
  · rw [if_neg hbelow, if_neg (show ¬c.below from hbelow)]
    unfold BudgetCase.refusal adjudicateDimension
    split_ifs <;> rfl

/-- The selector stops at the first dimension with a reason. -/
theorem budgetDetailFrom_encode {cases : List BudgetCase} {i : Nat} (h : ∀ c ∈ cases, c.Fits)
    (hcodes : cases.map (·.dimension.code) = List.range' (i + 1) cases.length) :
    budgetDetailFrom i (cases.map BudgetCase.encode) = nameDetail (firstReason cases) := by
  induction cases generalizing i with
  | nil => rfl
  | cons c rest ih =>
      rw [List.length_cons, List.range'_succ, List.map_cons] at hcodes
      obtain ⟨hcode, hrest⟩ := List.cons.inj hcodes
      rw [List.map_cons, budgetDetailFrom, firstReason,
        budgetDimReason_encode (h c List.mem_cons_self)]
      cases hreason : c.reason with
      | none => exact ih (fun d hd => h d (List.mem_cons_of_mem _ hd)) hrest
      | some failure =>
          rw [← hcode]
          cases failure <;> rfl

/-! ### Agreement -/

/-- The selectors, and every outcome whose first failing membrane is the budget, give the
name. -/
structure NamedAlike (name : RefusalName) (inputs : AdmissionInputs) : Prop where
  reference : referenceBudgetDetail inputs = nameDetail name
  circuit : circuitBudgetDetail inputs = .ok (nameDetail name)
  outcome : ∀ code trace dimension reason schedule,
    referenceAdmission inputs =
      .refused budgetMembrane code trace dimension reason schedule ∨
    circuitAdmission inputs =
      .ok (.refused budgetMembrane code trace dimension reason schedule) →
    (dimension, reason) = nameSelectors name

theorem budgetSelectors_nameDetail (name : RefusalName) :
    budgetSelectors budgetMembrane (nameDetail name) = nameSelectors name := by
  unfold budgetSelectors
  rw [if_pos rfl]
  exact nameDetail_selectors name

theorem reference_outcome_selectors {inputs : AdmissionInputs} {name : RefusalName}
    (hdetail : referenceBudgetDetail inputs = nameDetail name)
    {code dimension reason schedule : Nat} {trace : List Bool}
    (h : referenceAdmission inputs =
      .refused budgetMembrane code trace dimension reason schedule) :
    (dimension, reason) = nameSelectors name := by
  unfold referenceAdmission outcomeFromTrace at h
  rw [hdetail] at h
  split at h
  · cases h
  · simp only [AdmissionOutcome.refused.injEq] at h
    obtain ⟨hmembrane, -, -, hdimension, hreason, -⟩ := h
    rw [hmembrane, budgetSelectors_nameDetail] at hdimension hreason
    rw [← hdimension, ← hreason]

theorem circuit_outcome_selectors {inputs : AdmissionInputs} {name : RefusalName}
    (hdetail : circuitBudgetDetail inputs = .ok (nameDetail name))
    {code dimension reason schedule : Nat} {trace : List Bool}
    (h : circuitAdmission inputs =
      .ok (.refused budgetMembrane code trace dimension reason schedule)) :
    (dimension, reason) = nameSelectors name := by
  unfold circuitAdmission at h
  rw [hdetail] at h
  cases hrun : runCircuit "circuit" (compileAdmission (admissionShapeOf inputs))
      (encodeAdmission inputs) with
  | error reason =>
      rw [hrun] at h
      cases h
  | ok decision =>
      rw [hrun] at h
      simp only [bind, Except.bind] at h
      split at h
      · cases h
      · cases hschedule : circuitScheduleDetail inputs with
        | error reason =>
            rw [hschedule] at h
            cases h
        | ok detail =>
            rw [hschedule] at h
            simp only [pure, Except.pure, Except.ok.injEq, AdmissionOutcome.refused.injEq] at h
            obtain ⟨hmembrane, -, -, hdimension, hreason, -⟩ := h
            rw [hmembrane, budgetSelectors_nameDetail] at hdimension hreason
            rw [← hdimension, ← hreason]

/-- The lanes of a request that fits them carry the first dimension with a reason, whether
the reference or the circuit reads them. -/
theorem budgetDetail_eq_firstReason {requirements : BudgetRequirements} {profile : BudgetProfile}
    {derived : DerivedMinimums} {inputs : AdmissionInputs}
    (hbudget : inputs.budget = (budgetCases requirements profile derived).map BudgetCase.encode)
    (hfits : ∀ c ∈ budgetCases requirements profile derived, c.Fits) :
    referenceBudgetDetail inputs =
        nameDetail (firstReason (budgetCases requirements profile derived)) ∧
      circuitBudgetDetail inputs =
        .ok (nameDetail (firstReason (budgetCases requirements profile derived))) := by
  have hreference : referenceBudgetDetail inputs =
      nameDetail (firstReason (budgetCases requirements profile derived)) := by
    unfold referenceBudgetDetail
    rw [hbudget]
    exact budgetDetailFrom_encode hfits rfl
  have hseven : inputs.budget.length = 7 := by
    rw [hbudget]
    rfl
  refine ⟨hreference, ?_⟩
  rw [← hreference]
  apply circuitBudgetDetail_ok (Nat.le_of_eq hseven)
  rw [length_encodeBudget, hseven]
  decide

/-- A refusal of the admission has the name the selectors and the outcomes give it exactly
when no dimension that the profile does not cover comes before the first one below its derived
minimum: the admission looks at all minimums first, the selectors at one dimension after the
other. -/
theorem budget_names_agree_iff (requirements : BudgetRequirements) (profile : BudgetProfile)
    (derived : DerivedMinimums) (digest : Digest32) (inputs : AdmissionInputs)
    (hbudget : inputs.budget = (budgetCases requirements profile derived).map BudgetCase.encode)
    (hfits : ∀ c ∈ budgetCases requirements profile derived, c.Fits) :
    NamedAlike (admitName (budgetAdmit requirements profile derived digest)) inputs ↔
      MinimumsFirst (budgetCases requirements profile derived) := by
  obtain ⟨hreference, hcircuit⟩ := budgetDetail_eq_firstReason hbudget hfits
  rw [admitName_budgetAdmit, ← twoPhase_eq_firstReason_iff]
  constructor
  · intro hnamed
    apply nameDetail_inj
    rw [← hnamed.reference, hreference]
  · intro hname
    rw [← hname] at hreference hcircuit
    refine ⟨hreference, hcircuit, ?_⟩
    intro code trace dimension reason schedule houtcome
    rcases houtcome with houtcome | houtcome
    · exact reference_outcome_selectors hreference houtcome
    · exact circuit_outcome_selectors hcircuit houtcome

/-- Ten units of wall time are asked for; every other dimension asks for none. -/
def wallRequirements : BudgetRequirements where
  wallMicros := ⟨10, .mediated, {.resourceUsage}⟩
  cpuMicros := ⟨0, .mediated, ∅⟩
  residentBytes := ⟨0, .mediated, ∅⟩
  processCount := ⟨0, .mediated, ∅⟩
  handleCount := ⟨0, .mediated, ∅⟩
  storageBytes := ⟨0, .mediated, ∅⟩
  networkBytes := ⟨0, .mediated, ∅⟩

/-- Every dimension is enforced, with the same capacity. -/
def evenProfile (available : BitVec 64) : BudgetProfile where
  wallMicros := ⟨available, .enforced, {.resourceUsage}, "deadline"⟩
  cpuMicros := ⟨available, .enforced, ∅, "rlimit"⟩
  residentBytes := ⟨available, .enforced, ∅, "rlimit"⟩
  processCount := ⟨available, .enforced, ∅, "rlimit"⟩
  handleCount := ⟨available, .enforced, ∅, "rlimit"⟩
  storageBytes := ⟨available, .enforced, ∅, "quota"⟩
  networkBytes := ⟨available, .enforced, ∅, "quota"⟩

/-- The request alone: the other membranes pass. -/
def budgetOnly (requirements : BudgetRequirements) (profile : BudgetProfile)
    (derived : DerivedMinimums) : AdmissionInputs where
  plannedProfile := 0
  liveProfile := 0
  requirements := []
  budget := (budgetCases requirements profile derived).map BudgetCase.encode
  schedule := ⟨[], [], 0⟩

theorem budget_names_agree_wall_below :
    admitName (budgetAdmit wallRequirements (evenProfile 5) { wallMicros := 20, cpuMicros := 1 } 0) =
      some (.wall, .belowDerivedMinimum) ∧
    NamedAlike
      (admitName
        (budgetAdmit wallRequirements (evenProfile 5) { wallMicros := 20, cpuMicros := 1 } 0))
      (budgetOnly wallRequirements (evenProfile 5) { wallMicros := 20, cpuMicros := 1 }) :=
  ⟨by decide +kernel,
    (budget_names_agree_iff wallRequirements (evenProfile 5) { wallMicros := 20, cpuMicros := 1 } 0
      _ rfl (by decide +kernel)).mpr ((twoPhase_eq_firstReason_iff _).mp (by decide +kernel))⟩

/-- Wall time over the capacity and no cpu time where one unit is needed: the admission names
the cpu and its minimum, the selectors and the outcomes the wall and its capacity. -/
theorem wall_over_cpu_below_named_twice :
    (budgetOnly wallRequirements (evenProfile 5) { cpuMicros := 1 }).budget =
      (budgetCases wallRequirements (evenProfile 5) { cpuMicros := 1 }).map BudgetCase.encode ∧
    (∀ c ∈ budgetCases wallRequirements (evenProfile 5) { cpuMicros := 1 }, c.Fits) ∧
    admitName (budgetAdmit wallRequirements (evenProfile 5) { cpuMicros := 1 } 0) =
      some (.cpu, .belowDerivedMinimum) ∧
    referenceBudgetDetail (budgetOnly wallRequirements (evenProfile 5) { cpuMicros := 1 }) =
      nameDetail (some (.wall, .capacityExceeded)) ∧
    circuitBudgetDetail (budgetOnly wallRequirements (evenProfile 5) { cpuMicros := 1 }) =
      .ok (nameDetail (some (.wall, .capacityExceeded))) ∧
    referenceAdmission (budgetOnly wallRequirements (evenProfile 5) { cpuMicros := 1 }) =
      .refused 4 4 [true, true, true, false, true, true] 1 2 0 ∧
    ¬NamedAlike (admitName (budgetAdmit wallRequirements (evenProfile 5) { cpuMicros := 1 } 0))
      (budgetOnly wallRequirements (evenProfile 5) { cpuMicros := 1 }) := by
  have hfits : ∀ c ∈ budgetCases wallRequirements (evenProfile 5) { cpuMicros := 1 }, c.Fits := by
    decide +kernel
  have hfirst : firstReason (budgetCases wallRequirements (evenProfile 5) { cpuMicros := 1 }) =
      some (.wall, .capacityExceeded) := by
    decide +kernel
  have hname : admitName (budgetAdmit wallRequirements (evenProfile 5) { cpuMicros := 1 } 0) =
      some (.cpu, .belowDerivedMinimum) := by
    decide +kernel
  obtain ⟨hreference, hcircuit⟩ := @budgetDetail_eq_firstReason wallRequirements (evenProfile 5)
    { cpuMicros := 1 } (budgetOnly wallRequirements (evenProfile 5) { cpuMicros := 1 }) rfl hfits
  rw [hfirst] at hreference hcircuit
  refine ⟨rfl, hfits, hname, hreference, hcircuit, by decide +kernel, ?_⟩
  intro hnamed
  have hsame := nameDetail_inj (hreference.symm.trans hnamed.reference)
  rw [hname] at hsame
  cases hsame

end Batpak.Bvisor
